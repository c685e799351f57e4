import Hel.Config.Impl.Rename

/-!
This module contains what a rename of a profile or a target and the recovery after a crash leave of
the configuration and of the references to it.
-/

namespace Hel

open ConfigFile Program

section Entries

variable {α : Type} {entries : BTreeMap String α} {entry : α} {oldId newId : String}

theorem except_bind_ok_iff {x : Except String Unit} {f : Unit → Except String Unit}
    : (x >>= f) = .ok () ↔ x = .ok () ∧ f () = .ok () := by
  cases x with
  | error e | ok _ => simp [Bind.bind, Except.bind]

variable {kind : String}

theorem validateId_ok_iff {id : String} : validateId kind id = .ok () ↔ validId id = true := by
  unfold validateId
  split <;> simp_all

variable {check : α → Option (String → String)}

theorem validateEntries_ok_iff
    {items : List (String × α)}
    : validateEntries kind check items = .ok ()
        ↔ ∀ item ∈ items, validId item.1 = true ∧ check item.2 = none := by
  induction items with
  | nil => simp [validateEntries]
  | cons item rest ih =>
    rw [validateEntries, except_bind_ok_iff, validateId_ok_iff, List.forall_mem_cons]
    cases hcheck : check item.2 with
    | none => simp [ih]
    | some message => simp

theorem get?_moveEntry (h : entries.get? oldId = some entry) (id : String)
    : (moveEntry entries oldId newId).get? id
        = if id = newId then some entry else if id = oldId then none else entries.get? id := by
  simp only [moveEntry, h, BTreeMap.get?_insert, BTreeMap.get?_remove]

theorem contains_moveEntry (h : entries.contains oldId = true) (id : String)
    : (moveEntry entries oldId newId).contains id
        = (decide (id = newId) || (decide (id ≠ oldId) && entries.contains id)) := by
  obtain ⟨entry, hentry⟩ := Option.isSome_iff_exists.mp h
  unfold BTreeMap.contains
  rw [get?_moveEntry hentry]
  split
  . simp_all
  . split <;> simp_all

theorem validateEntries_moveEntry
    (h : entries.contains oldId = true) (hnew : validId newId = true)
    (hvalid : validateEntries kind check entries.entries = .ok ())
    : validateEntries kind check (moveEntry entries oldId newId).entries = .ok () := by
  obtain ⟨entry, hentry⟩ := Option.isSome_iff_exists.mp h
  rw [validateEntries_ok_iff] at hvalid ⊢
  rintro ⟨id, value⟩ hmem
  rw [BTreeMap.mem_entries_iff, get?_moveEntry hentry] at hmem
  split at hmem
  next hid =>
    cases hmem
    rw [hid]
    exact ⟨hnew, (hvalid _ (BTreeMap.mem_entries_iff.mpr hentry)).2⟩
  next =>
    split at hmem
    . cases hmem
    exact hvalid _ (BTreeMap.mem_entries_iff.mpr hmem)

theorem finishConfigMapRename_begun (h : entries.contains oldId = true)
    (hfresh : entries.contains newId = false)
    : finishConfigMapRename entries oldId newId kind = .ok (moveEntry entries oldId newId) := by
  obtain ⟨entry, hentry⟩ := Option.isSome_iff_exists.mp h
  simp [finishConfigMapRename, moveEntry, hentry, BTreeMap.contains_remove, hfresh]

theorem finishConfigMapRename_moved (h : entries.contains oldId = true) (hne : oldId ≠ newId)
    : finishConfigMapRename (moveEntry entries oldId newId) oldId newId kind
        = .ok (moveEntry entries oldId newId) := by
  have hold : (moveEntry entries oldId newId).get? oldId = none := by
    have hgone : (moveEntry entries oldId newId).contains oldId = false := by
      simp [contains_moveEntry h, hne]
    simpa [BTreeMap.contains] using hgone
  have hnew : (moveEntry entries oldId newId).contains newId = true := by
    simp [contains_moveEntry h]
  simp [finishConfigMapRename, hold, hnew]

end Entries

variable {Profile Target : Type} {checks : ConfigChecks Profile Target} {oldId newId : String}
  {kind : ConfigRenameKind} {Q : Unit → ConfigStore Profile Target → Prop}
  {config : ConfigFile Profile Target}

theorem ConfigFile.validate_ok_iff
    : config.validate checks = .ok ()
        ↔ config.phone = .ok ()
          ∧ validateEntries "profile" checks.profile config.profiles.entries = .ok ()
          ∧ config.review.validate config.profiles = .ok ()
          ∧ config.bundles = .ok ()
          ∧ validateEntries "target template" checks.target config.targets.entries = .ok () := by
  simp only [validate, except_bind_ok_iff]

theorem ReviewConfig.validate_ok_iff {review : ReviewConfig} {profiles : BTreeMap String Profile}
    : review.validate profiles = .ok ()
        ↔ (review.enabled = true → review.profile ≠ none)
          ∧ ∀ profile, review.profile = some profile → profiles.contains profile = true := by
  unfold ReviewConfig.validate
  cases review.profile with
  | none => cases review.enabled <;> simp
  | some profile => cases hmem : profiles.contains profile <;> simp [hmem]

namespace ConfigStore

structure Renamable (checks : ConfigChecks Profile Target) (s : ConfigStore Profile Target)
    (journal : ConfigRenameJournal) : Prop where
  idle : s.journal = none
  own : s.config.newerConfigVersion = none
  valid : s.config.validate checks = .ok ()
  named : s.config.has journal.kind journal.oldId = true
  fresh : s.config.has journal.kind journal.newId = false
  newId : validId journal.newId = true
  apart : journal.kind = .profile → s.config.review.profile ≠ some journal.oldId

def carried (s : ConfigStore Profile Target) (journal : ConfigRenameJournal)
    : ConfigStore Profile Target :=
  { s with
    config := s.config.move journal.kind journal.oldId journal.newId
    sessions := s.sessions.map (·.rename journal.kind journal.oldId journal.newId) }

inductive Underway (base : ConfigStore Profile Target) (journal : ConfigRenameJournal)
    : ConfigStore Profile Target → Prop where
  | begun : Underway base journal { base with journal := some journal }
  | moved : Underway base journal
      { base with
        journal := some journal
        config := base.config.move journal.kind journal.oldId journal.newId }
  | carried : Underway base journal { base.carried journal with journal := some journal }

variable {s base : ConfigStore Profile Target} {journal : ConfigRenameJournal}

section

variable (h : Renamable checks s journal)

include h

theorem Renamable.ne : journal.oldId ≠ journal.newId := by
  intro heq
  have hfresh := h.fresh
  rw [← heq, h.named] at hfresh
  cases hfresh

theorem Renamable.valid_move
    : (s.config.move journal.kind journal.oldId journal.newId).validate checks = .ok () := by
  have hnamed := h.named
  have hvalid := validate_ok_iff.mp h.valid
  rw [validate_ok_iff]
  cases hkind : journal.kind with rw [hkind] at hnamed
  | profile =>
    have hreview := ReviewConfig.validate_ok_iff.mp hvalid.2.2.1
    refine ⟨hvalid.1, validateEntries_moveEntry hnamed h.newId hvalid.2.1, ?_, hvalid.2.2.2⟩
    rw [ReviewConfig.validate_ok_iff]
    refine ⟨hreview.1, ?_⟩
    intro profile hprofile
    have hne : profile ≠ journal.oldId := by
      intro heq
      apply h.apart hkind
      rw [← heq]
      exact hprofile
    simp [move, contains_moveEntry hnamed, hne, hreview.2 profile hprofile]
  | target =>
    exact ⟨hvalid.1, hvalid.2.1, hvalid.2.2.1, hvalid.2.2.2.1,
      validateEntries_moveEntry hnamed h.newId hvalid.2.2.2.2⟩

theorem Renamable.own_move
    : (s.config.move journal.kind journal.oldId journal.newId).newerConfigVersion = none := by
  cases hkind : journal.kind <;> exact h.own

theorem Renamable.finishRename_begun
    : s.config.finishRename journal
        = .ok (s.config.move journal.kind journal.oldId journal.newId) := by
  have hnamed := h.named
  have hfresh := h.fresh
  cases hkind : journal.kind with
  | profile | target =>
    rw [hkind] at hnamed hfresh
    simp [finishRename, move, hkind, finishConfigMapRename_begun hnamed hfresh]

theorem Renamable.finishRename_moved
    : (s.config.move journal.kind journal.oldId journal.newId).finishRename journal
        = .ok (s.config.move journal.kind journal.oldId journal.newId) := by
  have hnamed := h.named
  cases hkind : journal.kind with
  | profile | target =>
    rw [hkind] at hnamed
    simp [finishRename, move, hkind, finishConfigMapRename_moved hnamed h.ne]

end

theorem rename_rename (session : SessionReference) (kind : ConfigRenameKind) (hne : oldId ≠ newId)
    : (session.rename kind oldId newId).rename kind oldId newId = session.rename kind oldId newId := by
  cases kind with
  | profile | target =>
    simp only [SessionReference.rename]
    split <;> simp_all [Ne.symm hne]

theorem save_eq (hown : config.newerConfigVersion = none)
    (hstored : s.config.newerConfigVersion = none) (hvalid : config.validate checks = .ok ())
    (fate : Fate)
    : save checks config fate s
        = (step fate >>= fun _ => modify (fun s => { s with config := config })) s := by
  simp only [save, get_bind, hown, hstored, Option.isNone_none, Bool.and_true, ensure_true_bind,
    hvalid, ofExcept_ok_bind]

theorem Underway.parts (hbase : Renamable checks base journal) (h : Underway base journal s)
    : ∃ config sessions,
        s = { base with journal := some journal, config := config, sessions := sessions }
        ∧ config.newerConfigVersion = none
        ∧ config.validate checks = .ok ()
        ∧ config.finishRename journal
          = .ok (base.config.move journal.kind journal.oldId journal.newId)
        ∧ (sessions = base.sessions
          ∨ sessions = base.sessions.map (·.rename journal.kind journal.oldId journal.newId)) := by
  cases h with
  | begun => exact ⟨_, _, rfl, hbase.own, hbase.valid, hbase.finishRename_begun, .inl rfl⟩
  | moved =>
    exact ⟨_, _, rfl, hbase.own_move, hbase.valid_move, hbase.finishRename_moved, .inl rfl⟩
  | carried =>
    exact ⟨_, _, rfl, hbase.own_move, hbase.valid_move, hbase.finishRename_moved, .inr rfl⟩

theorem recover_lands (hbase : Renamable checks base journal) (h : Underway base journal s)
    (fates : RecoverFates)
    : Lands (fun t => Underway base journal t ∧ fates ≠ {})
        (fun t => Underway base journal t ∧ fates ≠ {})
        (fun _ t => t = base.carried journal)
        (recoverConfigIdRename checks fates s) := by
  have hs := h
  obtain ⟨config, sessions, rfl, hown, hvalid, hfinish, hsessions⟩ := h.parts hbase
  have hmoved : Underway base journal
      { base with
        journal := some journal
        config := base.config.move journal.kind journal.oldId journal.newId
        sessions := sessions } := by
    rcases hsessions with rfl | rfl
    . exact .moved
    . exact .carried
  have hcarried : sessions.map (·.rename journal.kind journal.oldId journal.newId)
      = base.sessions.map (·.rename journal.kind journal.oldId journal.newId) := by
    rcases hsessions with rfl | rfl
    . rfl
    . simp [rename_rename _ _ hbase.ne]
  unfold recoverConfigIdRename
  cases hread : fates.read with
  | error _ | crash => exact ⟨hs, by rintro rfl; cases hread⟩
  | ok =>
  simp only [step_ok_bind, get_bind, hown, Option.isNone_none, guarded_true, hvalid, hfinish,
    ofExcept_ok_bind]
  rw [bind_apply, save_eq hbase.own_move hown hbase.valid_move]
  cases hsave : fates.save with
  | error _ | crash => exact ⟨hs, by rintro rfl; cases hsave⟩
  | ok =>
  cases hreferences : fates.references with
  | error _ | crash => exact ⟨hmoved, by rintro rfl; cases hreferences⟩
  | ok =>
  cases hremove : fates.remove with
  | error _ | crash =>
    refine ⟨?_, by rintro rfl; cases hremove⟩
    dsimp only
    rw [hcarried]
    exact .carried
  | ok =>
    show _ = _
    simp [ConfigStore.carried, hcarried, hbase.idle]

theorem rename_lands (h : Renamable checks s journal) (idKind : String) (fates : RenameFates)
    : Lands (fun t => (t = s ∨ Underway s journal t) ∧ fates ≠ {})
        (fun t => (t = s ∨ Underway s journal t) ∧ fates ≠ {})
        (fun _ t => t = s.carried journal)
        (renameConfigId checks journal.kind idKind journal.oldId journal.newId fates s) := by
  have hidle : { s with journal := none } = s := by
    rw [← h.idle]
  unfold renameConfigId
  simp only [validateId, h.newId, h.named, h.fresh, h.ne, get_bind, if_true, ofExcept_ok_bind,
    ensure_true_bind, Bool.not_false, Bool.or_true, if_false]
  cases hjournal : fates.journal with
  | error _ | crash => exact ⟨.inl rfl, by rintro rfl; cases hjournal⟩
  | ok =>
  show Lands _ _ _ ((attempt _ >>= _) { s with journal := some journal })
  rw [bind_apply, attempt, save_eq h.own_move (by exact h.own) h.valid_move]
  cases hsave : fates.save with
  | crash => exact ⟨.inr .begun, by rintro rfl; cases hsave⟩
  | error _ =>
    have hfates : fates ≠ {} := by rintro rfl; cases hsave
    cases fates.remove with
    | error _ | crash => exact ⟨.inr .begun, hfates⟩
    | ok => exact ⟨.inl hidle, hfates⟩
  | ok =>
  cases hreferences : fates.references with
  | crash => exact ⟨.inr .moved, by rintro rfl; cases hreferences⟩
  | error _ =>
    have hfates : fates ≠ {} := by rintro rfl; cases hreferences
    show Lands _ _ _ ((attempt (save checks s.config fates.restore) >>= _) { s with
      journal := some journal
      config := s.config.move journal.kind journal.oldId journal.newId })
    rw [bind_apply, attempt, save_eq h.own (by exact h.own_move) h.valid]
    cases fates.restore with
    | error _ | crash => exact ⟨.inr .moved, hfates⟩
    | ok =>
    cases fates.remove with
    | error _ | crash => exact ⟨.inr .begun, hfates⟩
    | ok => exact ⟨.inl hidle, hfates⟩
  | ok =>
  cases hremove : fates.remove with
  | error _ | crash => exact ⟨.inr .carried, by rintro rfl; cases hremove⟩
  | ok =>
    show _ = _
    simp [ConfigStore.carried, h.idle]

/-!
### Runs
-/

def renameId (checks : ConfigChecks Profile Target)
    : ConfigRenameKind → String → String → RenameFates → Program (ConfigStore Profile Target) Unit
  | .profile => renameProfileId checks
  | .target => renameTargetId checks

def missing (config : ConfigFile Profile Target) (session : SessionReference) : Bool :=
  !(config.profiles.contains session.lastProfile
    && config.targets.contains session.targetTemplateId)

inductive ConfigOp (Profile Target : Type) where
  | rename (kind : ConfigRenameKind) (oldId newId : String) (fates : RenameFates)
  | restart (fates : RecoverFates)
  | edit (config : ConfigFile Profile Target)

def next (checks : ConfigChecks Profile Target) (s : ConfigStore Profile Target)
    : ConfigOp Profile Target → Option (ConfigStore Profile Target)
  | .rename kind oldId newId fates => some (renameId checks kind oldId newId fates s).2
  | .restart fates => some (recoverConfigIdRename checks fates s).2
  | .edit config =>
    match config.validate checks with
    | .ok () =>
      some { s with
        config := config
        orphaned := s.orphaned
          ++ (s.sessions.filter (missing config)).map SessionReference.sessionId }
    | .error _ => none

/--
A rename or an edit is made while no journal is left of an earlier rename, and a rename neither of a
file that belongs to a newer build nor of the profile that reviews.
-/
def Careful (s : ConfigStore Profile Target) : ConfigOp Profile Target → Prop
  | .rename kind oldId _ _ =>
    s.journal = none ∧ s.config.newerConfigVersion = none
      ∧ (kind = .profile → s.config.review.profile ≠ some oldId)
  | .restart _ => True
  | .edit _ => s.journal = none

/-- The configuration is valid, and whatever names something missing has been orphaned by an edit. -/
structure Whole (checks : ConfigChecks Profile Target) (s : ConfigStore Profile Target) : Prop where
  valid : s.config.validate checks = .ok ()
  reviewer : ∀ profile, s.config.review.profile = some profile →
    s.config.profiles.contains profile = true
  sessions : ∀ session ∈ s.sessions, missing s.config session = true →
    session.sessionId ∈ s.orphaned

theorem Whole.of_valid (hvalid : s.config.validate checks = .ok ())
    (hsessions : ∀ session ∈ s.sessions, missing s.config session = true →
      session.sessionId ∈ s.orphaned) : Whole checks s where
  valid := hvalid
  reviewer := (ReviewConfig.validate_ok_iff.mp (ConfigFile.validate_ok_iff.mp hvalid).2.2.1).2
  sessions := hsessions

theorem missing_carried (h : Renamable checks s journal) {session : SessionReference}
    (hmissing : missing (s.carried journal).config
      (session.rename journal.kind journal.oldId journal.newId) = true)
    : missing s.config session = true
      ∧ (session.rename journal.kind journal.oldId journal.newId).sessionId = session.sessionId := by
  have hnamed := h.named
  cases hkind : journal.kind with
  | profile | target =>
    rw [hkind] at hnamed
    simp only [carried, hkind, move, missing, SessionReference.rename] at hmissing ⊢
    split at hmissing <;> simp_all [contains_moveEntry hnamed]
    tauto

theorem Whole.carried (h : Whole checks s) (hrenamable : Renamable checks s journal)
    : Whole checks (s.carried journal) := by
  apply Whole.of_valid hrenamable.valid_move
  intro session hmem hmissing
  obtain ⟨session, hbase, rfl⟩ := List.mem_map.mp hmem
  have hbefore := missing_carried hrenamable hmissing
  rw [hbefore.2]
  exact h.sessions session hbase hbefore.1

def Kept (checks : ConfigChecks Profile Target) (s : ConfigStore Profile Target) : Prop :=
  s.journal = none ∧ Whole checks s
    ∨ ∃ base journal, Renamable checks base journal ∧ Whole checks base ∧ Underway base journal s

theorem Underway.journal_eq (h : Underway base journal s) : s.journal = some journal := by
  cases h <;> rfl

theorem Kept.whole (h : Kept checks s) (hidle : s.journal = none) : Whole checks s := by
  rcases h with ⟨_, hwhole⟩ | ⟨base, journal, _, _, hunderway⟩
  . exact hwhole
  . cases hunderway.journal_eq.symm.trans hidle

theorem renameId_eq (checks : ConfigChecks Profile Target) (kind : ConfigRenameKind)
    (oldId newId : String) (fates : RenameFates)
    : ∃ idKind, renameId checks kind oldId newId fates
        = renameConfigId checks kind idKind oldId newId fates := by
  cases kind with
  | profile => exact ⟨"profile", rfl⟩
  | target => exact ⟨"target template", rfl⟩

theorem renamable_or_unchanged (h : Whole checks s) {fates : RenameFates}
    (hcareful : Careful s (.rename kind oldId newId fates))
    : Renamable checks s ⟨kind, oldId, newId⟩ ∨ (renameId checks kind oldId newId fates s).2 = s := by
  obtain ⟨idKind, heq⟩ := renameId_eq checks kind oldId newId fates
  rw [heq]
  unfold renameConfigId
  cases hid : validId newId with
  | false =>
    right
    simp only [validateId, hid]
    rfl
  | true =>
  cases hnamed : s.config.has kind oldId with
  | false =>
    right
    simp [validateId, hid, hnamed]
  | true =>
  by_cases hsame : oldId = newId
  . right
    subst hsame
    simp [validateId, hid, hnamed]
  cases hfresh : s.config.has kind newId with
  | true =>
    right
    simp [validateId, hid, hnamed, hfresh, hsame]
  | false =>
    left
    exact ⟨hcareful.1, hcareful.2.1, h.valid, hnamed, hfresh, hid, hcareful.2.2⟩

theorem kept_rename (h : Whole checks s) (fates : RenameFates)
    (hcareful : Careful s (.rename kind oldId newId fates))
    : (renameId checks kind oldId newId fates s).2 = s
      ∨ Renamable checks s ⟨kind, oldId, newId⟩
        ∧ ((renameId checks kind oldId newId fates s).2 = s.carried ⟨kind, oldId, newId⟩
          ∨ Underway s ⟨kind, oldId, newId⟩ (renameId checks kind oldId newId fates s).2) := by
  rcases renamable_or_unchanged h hcareful with hrenamable | hsame
  . obtain ⟨idKind, heq⟩ := renameId_eq checks kind oldId newId fates
    rw [heq]
    rcases (rename_lands hrenamable idKind fates).cases with ⟨_, _, hdone⟩ | ⟨hsame | hunderway, _⟩
    . exact .inr ⟨hrenamable, .inl hdone⟩
    . exact .inl hsame
    . exact .inr ⟨hrenamable, .inr hunderway⟩
  . exact .inl hsame

theorem recover_cases (hbase : Renamable checks base journal) (h : Underway base journal s)
    (fates : RecoverFates)
    : (recoverConfigIdRename checks fates s).2 = base.carried journal
      ∨ Underway base journal (recoverConfigIdRename checks fates s).2 := by
  rcases (recover_lands hbase h fates).cases with ⟨_, _, hdone⟩ | ⟨hunderway, _⟩
  . exact .inl hdone
  . exact .inr hunderway

theorem recover_idle (h : s.journal = none) (fates : RecoverFates)
    : (recoverConfigIdRename checks fates s).2 = s := by
  unfold recoverConfigIdRename
  cases fates.read with
  | ok => simp [h]
  | error message | crash => rfl

variable {t : ConfigStore Profile Target}

theorem kept_next {op : ConfigOp Profile Target}
    (h : Kept checks s) (hcareful : Careful s op) (hnext : next checks s op = some t)
    : Kept checks t := by
  cases op with
  | rename kind oldId newId fates =>
    cases hnext
    have hidle := hcareful.1
    have hwhole := h.whole hidle
    rcases kept_rename hwhole fates hcareful with hsame | ⟨hrenamable, hdone | hunderway⟩
    . left
      rw [hsame]
      exact ⟨hidle, hwhole⟩
    . left
      rw [hdone]
      exact ⟨hidle, hwhole.carried hrenamable⟩
    . right
      exact ⟨s, _, hrenamable, hwhole, hunderway⟩
  | restart fates =>
    cases hnext
    rcases h with ⟨hidle, hwhole⟩ | ⟨base, journal, hbase, hwhole, hunderway⟩
    . left
      rw [recover_idle hidle]
      exact ⟨hidle, hwhole⟩
    rcases recover_cases hbase hunderway fates with hdone | hunderway
    . left
      rw [hdone]
      exact ⟨hbase.idle, hwhole.carried hbase⟩
    . right
      exact ⟨base, journal, hbase, hwhole, hunderway⟩
  | edit config =>
    simp only [next] at hnext
    split at hnext <;> cases hnext
    rename_i hvalid
    left
    refine ⟨hcareful, Whole.of_valid hvalid ?_⟩
    intro session hmem hmissing
    apply List.mem_append_right
    apply List.mem_map_of_mem
    exact List.mem_filter.mpr ⟨hmem, hmissing⟩

abbrev Step (checks : ConfigChecks Profile Target) (s : ConfigStore Profile Target)
    (op : ConfigOp Profile Target) (t : ConfigStore Profile Target) : Prop :=
  next checks s op = some t

def IsRestart (_ : ConfigStore Profile Target) (op : ConfigOp Profile Target) : Prop :=
  ∃ fates, op = .restart fates

theorem recover_returns (h : Kept checks s)
    : ∃ recovered, (recoverConfigIdRename checks {} s).1 = .ok recovered
        ∧ (recoverConfigIdRename checks {} s).2.journal = none
        ∧ Whole checks (recoverConfigIdRename checks {} s).2 := by
  rcases h with ⟨hidle, hwhole⟩ | ⟨base, journal, hbase, hwhole, hunderway⟩
  . refine ⟨false, ?_, ?_⟩
    . simp [recoverConfigIdRename, hidle]
    . rw [recover_idle hidle]
      exact ⟨hidle, hwhole⟩
  rcases (recover_lands hbase hunderway {}).cases with ⟨recovered, hok, hdone⟩ | ⟨_, hfates⟩
  . rw [hdone]
    exact ⟨recovered, hok, hbase.idle, hwhole.carried hbase⟩
  . exact absurd rfl hfates

theorem restarts_finish (hbase : Renamable checks base journal)
    (h : Machine.Reaches (Step checks) IsRestart s t)
    (hs : s = base ∨ s = base.carried journal ∨ Underway base journal s)
    : t = base ∨ t = base.carried journal ∨ Underway base journal t := by
  apply h.invariant _ hs
  rintro s _ t hs ⟨fates, rfl⟩ hnext
  cases hnext
  rcases hs with rfl | rfl | hunderway
  . exact .inl (recover_idle hbase.idle fates)
  . right; left
    apply recover_idle
    exact hbase.idle
  . exact .inr (recover_cases hbase hunderway fates)

/--
If renames and edits are careful, a configuration without a pending rename is whole and a restart
gets there, and a rename ends with all references old or, as it does without a failure, all new.
-/
theorem config_rename_all_or_nothing {start : ConfigStore Profile Target}
    (hstart : start.journal = none ∧ Whole checks start)
    (h : Machine.Reaches (Step checks) Careful start s)
    : (s.journal = none → Whole checks s)
      ∧ (∃ recovered, (recoverConfigIdRename checks {} s).1 = .ok recovered
        ∧ (recoverConfigIdRename checks {} s).2.journal = none
        ∧ Whole checks (recoverConfigIdRename checks {} s).2)
      ∧ ∀ kind oldId newId, s.config.has kind oldId = true → s.config.has kind newId = false →
          validId newId = true → Careful s (.rename kind oldId newId {}) →
          renameId checks kind oldId newId {} s
            = (.ok (), s.carried { kind := kind, oldId := oldId, newId := newId })
          ∧ ∀ fates t, Machine.Reaches (Step checks) IsRestart
              (renameId checks kind oldId newId fates s).2 t → t.journal = none →
              t = s ∨ t = s.carried { kind := kind, oldId := oldId, newId := newId } := by
  have hkept : Kept checks s :=
    h.invariant (fun _ _ _ hkept hcareful hnext => kept_next hkept hcareful hnext) (.inl hstart)
  refine ⟨hkept.whole, recover_returns hkept, ?_⟩
  intro kind oldId newId hnamed hfresh hnew hcareful
  have hwhole := hkept.whole hcareful.1
  have hrenamable : Renamable checks s ⟨kind, oldId, newId⟩ :=
    ⟨hcareful.1, hcareful.2.1, hwhole.valid, hnamed, hfresh, hnew, hcareful.2.2⟩
  constructor
  . obtain ⟨idKind, heq⟩ := renameId_eq checks kind oldId newId {}
    rw [heq]
    rcases (rename_lands hrenamable idKind {}).cases with ⟨_, hok, hdone⟩ | ⟨_, hfates⟩
    . exact Prod.ext hok hdone
    . exact absurd rfl hfates
  intro fates t hreaches hidle
  rcases restarts_finish hrenamable hreaches
    ((kept_rename hwhole fates hcareful).imp_right And.right) with hsame | hdone | hunderway
  . exact .inl hsame
  . exact .inr hdone
  . cases hunderway.journal_eq.symm.trans hidle

def plainChecks : ConfigChecks Unit Unit where
  profile := fun _ => none
  target := fun _ => none

def plainStore (reviewer : Option String) : ConfigStore Unit Unit where
  config :=
    { review := { enabled := false, profile := reviewer }
      profiles := .ofList [("codex", ())]
      targets := .ofList [("podman", ())] }
  sessions := [{ sessionId := "s1", lastProfile := "codex", targetTemplateId := "podman" }]

theorem plainStore_whole {reviewer : Option String} (h : reviewer = none ∨ reviewer = some "codex")
    : Whole plainChecks (plainStore reviewer) := by
  rcases h with rfl | rfl <;>
    exact Whole.of_valid (by decide +kernel) (by decide +kernel)

def cutOff : ConfigStore Unit Unit :=
  (renameId plainChecks .profile "codex" "codex-2" { references := .crash } (plainStore none)).2

theorem cut_off_rename_all_or_nothing
    : cutOff.journal ≠ none
      ∧ ∃ recovered, (recoverConfigIdRename plainChecks {} cutOff).1 = .ok recovered
        ∧ (recoverConfigIdRename plainChecks {} cutOff).2.journal = none
        ∧ Whole plainChecks (recoverConfigIdRename plainChecks {} cutOff).2 := by
  have hcareful : Careful (plainStore none)
      (.rename .profile "codex" "codex-2" { references := .crash }) :=
    ⟨rfl, rfl, fun _ => nofun⟩
  have hreach : Machine.Reaches (Step plainChecks) Careful (plainStore none) cutOff :=
    .single hcareful rfl
  refine ⟨by decide +kernel, ?_⟩
  exact (config_rename_all_or_nothing ⟨rfl, plainStore_whole (.inl rfl)⟩ hreach).2.1

theorem review_profile_rename_strands_startup
    : Whole plainChecks (plainStore (some "codex")) ∧ (plainStore (some "codex")).journal = none
      -- Renaming the profile that reviews fails although no step of it does.
      ∧ (∃ message, (renameId plainChecks .profile "codex" "codex-2" {}
          (plainStore (some "codex"))).1 = .error message)
      -- Interrupted, it is a rename no startup gets past.
      ∧ (∀ fates recovered, (recoverConfigIdRename plainChecks fates (renameId plainChecks .profile
          "codex" "codex-2" { remove := .crash } (plainStore (some "codex"))).2).1 ≠ .ok recovered)
      -- A journal that could not be removed meets a configuration with the old id again.
      ∧ (∃ s, Machine.follow (next plainChecks) (plainStore none)
          [.rename .profile "codex" "codex-2" { remove := .error "busy" },
            .edit { (plainStore none).config with
              profiles := .ofList [("codex", ()), ("codex-2", ())] }] = some s
          ∧ ∀ fates recovered, (recoverConfigIdRename plainChecks fates s).1 ≠ .ok recovered)
      -- A later rename takes the place of the journal of one that was not finished.
      ∧ ∃ s, Machine.follow (next plainChecks) (plainStore none)
          [.rename .profile "codex" "codex-2"
              { references := .error "locked", restore := .error "full" },
            .rename .target "podman" "docker" {}] = some s
          ∧ s.journal = none ∧ ¬ Whole plainChecks s := by
  refine ⟨plainStore_whole (.inr rfl), rfl, ?_, ?_, ?_, ?_⟩
  . exact ⟨_, rfl⟩
  . intro fates recovered
    unfold recoverConfigIdRename
    cases fates.read <;> nofun
  . refine ⟨_, rfl, ?_⟩
    intro fates recovered
    unfold recoverConfigIdRename
    cases fates.read <;> nofun
  . refine ⟨_, rfl, rfl, ?_⟩
    intro hwhole
    have horphaned := hwhole.sessions
      { sessionId := "s1", lastProfile := "codex", targetTemplateId := "docker" }
      (by decide +kernel) (by decide +kernel)
    cases horphaned

end ConfigStore

end Hel
