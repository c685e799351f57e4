import Hel.Data.Program
import Hel.Review.Impl.PromptLock

/-!
This module contains the configuration file, the references that the sessions table makes to it, and
the renames of a profile or a target that have to change both.
-/

namespace Hel

def validId (id : String) : Bool :=
  id ≠ "" && id.utf8ByteSize ≤ 64
    && id.toList.all (fun c => c.isAlphanum || c = '-' || c = '_' || c = '.')
    && id ≠ "." && id ≠ ".."

-- `phone` and `bundles` are what the validation finds in the sections that a rename leaves alone.
structure ConfigFile (Profile Target : Type) where
  newerConfigVersion : Option Nat := none
  phone : Except String Unit := .ok ()
  review : ReviewConfig
  profiles : BTreeMap String Profile
  bundles : Except String Unit := .ok ()
  targets : BTreeMap String Target

inductive ConfigRenameKind where
  | profile
  | target
  deriving DecidableEq

structure ConfigRenameJournal where
  kind : ConfigRenameKind
  oldId : String
  newId : String
  deriving DecidableEq

structure SessionReference where
  sessionId : String
  lastProfile : String
  targetTemplateId : String
  deriving DecidableEq

/--
What survives a restart. `orphaned` only records the sessions that an edit of the configuration left
without their profile or target.
-/
structure ConfigStore (Profile Target : Type) where
  config : ConfigFile Profile Target
  journal : Option ConfigRenameJournal := none
  sessions : List SessionReference := []
  orphaned : List String := []

-- The checks on a profile or a target, besides the one of its id, that the message names.
structure ConfigChecks (Profile Target : Type) where
  profile : Profile → Option (String → String)
  target : Target → Option (String → String)

def ConfigRenameKind.label : ConfigRenameKind → String
  | .profile => "profile"
  | .target => "target"

section Entries

variable {α : Type}

def validateId (kind id : String) : Except String Unit :=
  if validId id then
    .ok ()
  else
    .error ("invalid " ++ kind ++ " id " ++ Text.debugString id
      ++ "; use 1-64 ASCII letters, digits, '.', '-' or '_'")

def validateEntries (kind : String) (check : α → Option (String → String))
    : List (String × α) → Except String Unit
  | [] => .ok ()
  | (id, value) :: rest => do
    validateId kind id
    match check value with
    | some message => .error (message id)
    | none => validateEntries kind check rest

def moveEntry (entries : BTreeMap String α) (oldId newId : String) : BTreeMap String α :=
  match entries.get? oldId with
  | some entry => (entries.remove oldId).insert newId entry
  | none => entries

def finishConfigMapRename (entries : BTreeMap String α) (oldId newId kind : String)
    : Except String (BTreeMap String α) :=
  match entries.get? oldId with
  | some entry =>
    if (entries.remove oldId).contains newId then
      .error ("cannot recover " ++ kind ++ " rename: both " ++ Text.debugString oldId ++ " and "
        ++ Text.debugString newId ++ " exist")
    else
      .ok ((entries.remove oldId).insert newId entry)
  | none =>
    if entries.contains newId then
      .ok entries
    else
      .error ("cannot recover " ++ kind ++ " rename: neither " ++ Text.debugString oldId ++ " nor "
        ++ Text.debugString newId ++ " exists")

end Entries

def ReviewConfig.validate {Profile : Type} (review : ReviewConfig)
    (profiles : BTreeMap String Profile) : Except String Unit :=
  if review.enabled && review.profile.isNone then
    .error "[review] enabled = true needs `profile` naming the harness profile that reviews"
  else
    match review.profile with
    | some profile =>
      if profiles.contains profile then
        .ok ()
      else
        .error ("[review] profile " ++ Text.debugString profile
          ++ " is not a profile defined in this config")
    | none => .ok ()

variable {Profile Target : Type}

namespace ConfigFile

variable (config : ConfigFile Profile Target)

def has : ConfigRenameKind → String → Bool
  | .profile => config.profiles.contains
  | .target => config.targets.contains

def move (kind : ConfigRenameKind) (oldId newId : String) : ConfigFile Profile Target :=
  match kind with
  | .profile => { config with profiles := moveEntry config.profiles oldId newId }
  | .target => { config with targets := moveEntry config.targets oldId newId }

def finishRename (journal : ConfigRenameJournal) : Except String (ConfigFile Profile Target) :=
  match journal.kind with
  | .profile => do
    let profiles ← finishConfigMapRename config.profiles journal.oldId journal.newId "profile"
    return { config with profiles := profiles }
  | .target => do
    let targets ← finishConfigMapRename config.targets journal.oldId journal.newId "target"
    return { config with targets := targets }

def validate (checks : ConfigChecks Profile Target) (config : ConfigFile Profile Target)
    : Except String Unit := do
  config.phone
  validateEntries "profile" checks.profile config.profiles.entries
  config.review.validate config.profiles
  config.bundles
  validateEntries "target template" checks.target config.targets.entries

end ConfigFile

def SessionReference.rename (session : SessionReference) (kind : ConfigRenameKind)
    (oldId newId : String) : SessionReference :=
  match kind with
  | .profile =>
    if session.lastProfile = oldId then { session with lastProfile := newId } else session
  | .target =>
    if session.targetTemplateId = oldId then { session with targetTemplateId := newId } else session

structure RenameFates where
  journal : Fate := .ok
  save : Fate := .ok
  references : Fate := .ok
  restore : Fate := .ok
  remove : Fate := .ok

structure RecoverFates where
  read : Fate := .ok
  save : Fate := .ok
  references : Fate := .ok
  remove : Fate := .ok

namespace ConfigStore

open Program

variable (checks : ConfigChecks Profile Target)

def writeConfigRenameJournal (journal : ConfigRenameJournal) (fate : Fate)
    : Program (ConfigStore Profile Target) Unit := do
  step fate
  modify (fun s => { s with journal := some journal })

def removeConfigRenameJournal (fate : Fate) : Program (ConfigStore Profile Target) Unit := do
  step fate
  modify (fun s => { s with journal := none })

def save (config : ConfigFile Profile Target) (fate : Fate)
    : Program (ConfigStore Profile Target) Unit := do
  let s ← get
  ensure (config.newerConfigVersion.isNone && s.config.newerConfigVersion.isNone)
    "the config was written by a newer Mjolnir"
  ofExcept (config.validate checks)
  step fate
  modify (fun s => { s with config := config })

def renameReferences (kind : ConfigRenameKind) (oldId newId : String) (fate : Fate)
    : Program (ConfigStore Profile Target) Unit := do
  step fate
  modify (fun s => { s with sessions := s.sessions.map (·.rename kind oldId newId) })

def renameConfigId (kind : ConfigRenameKind) (idKind : String) (oldId newId : String)
    (fates : RenameFates) : Program (ConfigStore Profile Target) Unit := do
  ofExcept (validateId idKind newId)
  let s ← get
  ensure (s.config.has kind oldId) ("unknown " ++ kind.label ++ " " ++ Text.debugString oldId)
  ensure (oldId = newId || !s.config.has kind newId)
    (kind.label ++ " " ++ Text.debugString newId ++ " already exists")
  if oldId = newId then
    return
  writeConfigRenameJournal { kind := kind, oldId := oldId, newId := newId } fates.journal
  match ← attempt (save checks (s.config.move kind oldId newId) fates.save) with
  | .error error =>
    context ("remove " ++ kind.label ++ " rename journal after config save failed")
      (removeConfigRenameJournal fates.remove)
    fail ("save renamed " ++ kind.label ++ " configuration: " ++ error)
  | .ok () =>
    match ← attempt (renameReferences kind oldId newId fates.references) with
    | .error error =>
      match ← attempt (save checks s.config fates.restore) with
      | .error restoreError =>
        fail ("rename " ++ kind.label ++ " references; additionally failed to restore config: "
          ++ restoreError ++ ": " ++ error)
      | .ok () =>
        removeConfigRenameJournal fates.remove
        fail ("rename " ++ kind.label ++ " references: " ++ error)
    | .ok () => removeConfigRenameJournal fates.remove

def renameProfileId : String → String → RenameFates → Program (ConfigStore Profile Target) Unit :=
  renameConfigId checks .profile "profile"

def renameTargetId : String → String → RenameFates → Program (ConfigStore Profile Target) Unit :=
  renameConfigId checks .target "target template"

def recoverConfigIdRename (fates : RecoverFates) : Program (ConfigStore Profile Target) Bool := do
  step fates.read
  let s ← get
  match s.journal with
  | none => return false
  | some journal =>
    guarded s.config.newerConfigVersion.isNone (ofExcept (s.config.validate checks))
    let config ← ofExcept (s.config.finishRename journal)
    save checks config fates.save
    renameReferences journal.kind journal.oldId journal.newId fates.references
    removeConfigRenameJournal fates.remove
    return true

end ConfigStore

end Hel
