import RobotArena.Settings.Override

/-!
# What the environment overrides

Variables are looked at in a fixed order, and each of them sets one setting. The first one with a value that
cannot be read ends the pass: what has been overridden before it stays overridden. Settings are loaded only
if there is no such variable.
-/

namespace RobotArena

variable {env : List (String × String)}

namespace Override

/-- The variable is set, and its value, without the blanks around it, cannot be read. -/
def Offends (env : List (String × String)) (o : Override) : Prop :=
  ∃ value, env.lookup o.name = some value ∧ ∀ s, o.read? (Text.trim value.toList) s = none

/-- The names of the variables, in order. -/
def names : List String :=
  all.map (·.name)

end Override

namespace Settings

/-- What a setting is when some variables have been looked at: what its variable says if it is one of them and
is set, and what was given otherwise. -/
def taken {α : Type} (env : List (String × String)) (looked : List String) (name : String)
    (read? : List Char → Option α) (given : α) : α :=
  if name ∈ looked then ((env.lookup name).bind fun value => read? (Text.trim value.toList)).getD given else given

/-- The settings when some variables have been looked at. -/
def overridden (env : List (String × String)) (looked : List String) (s : Settings) : Settings :=
  { s with
    tickRate := taken env looked "BOTFORGE_TICK_HZ" (Text.readUnsigned? maxWord) s.tickRate
    engine := { s.engine with
      instructionBudget :=
        taken env looked "BOTFORGE_INSTRUCTION_BUDGET" (Text.readUnsigned? maxWord) s.engine.instructionBudget
      traceEnabled := taken env looked "BOTFORGE_TRACE" Override.readBool? s.engine.traceEnabled }
    scheduler := { s.scheduler with
      retryBackoff :=
        taken env looked "BOTFORGE_RETRY_BACKOFF_MS" (Text.readUnsigned? maxLong) s.scheduler.retryBackoff
      syncInterval :=
        taken env looked "BOTFORGE_SYNC_INTERVAL_MS" (Text.readUnsigned? maxLong) s.scheduler.syncInterval }
    collectionInterval :=
      taken env looked "BOTFORGE_GC_INTERVAL_TICKS" (Text.readUnsigned? maxLong) s.collectionInterval }

section

variable {α : Type} {looked : List String} {name other : String} (read? : List Char → Option α) (given : α)

theorem taken_concat_other (differs : name ≠ other) :
    taken env (looked ++ [other]) name read? given = taken env looked name read? given := by
  have same : name ∈ looked ++ [other] ↔ name ∈ looked := by simp [differs]
  simp only [taken, same]

theorem taken_of_absent (absent : env.lookup name = none) : taken env looked name read? given = given := by
  unfold taken
  rw [absent]
  exact ite_self given

theorem taken_concat_self {value : String} {a : α} (held : env.lookup name = some value)
    (read : read? (Text.trim value.toList) = some a) : taken env (looked ++ [name]) name read? given = a := by
  unfold taken
  rw [if_pos List.mem_concat_self, held, Option.bind_some, read]
  rfl

end

variable {s : Settings} {looked : List String} {o : Override}

theorem overridden_nil : s.overridden env [] = s := rfl

theorem override_of_offends (offends : o.Offends env) (s : Settings) :
    ∃ value, env.lookup o.name = some value ∧ s.override env o = .error (.invalidOverride o.name value) := by
  obtain ⟨value, held, unread⟩ := offends
  refine ⟨value, held, ?_⟩
  unfold override
  rw [held]
  dsimp only
  rw [unread]

/-- A variable that does not offend sets the one setting that it is read for. -/
theorem override_of_put {α : Type} (read? : List Char → Option α) (put : α → Settings → Settings) (get : Settings → α)
    (reads : ∀ cs s, o.read? cs s = (read? cs).map (put · s))
    (puts : s.overridden env (looked ++ [o.name]) =
      put (taken env (looked ++ [o.name]) o.name read? (get s)) (s.overridden env looked))
    (keeps : put (taken env looked o.name read? (get s)) (s.overridden env looked) = s.overridden env looked)
    (fine : ¬o.Offends env) :
    (s.overridden env looked).override env o = .ok (s.overridden env (looked ++ [o.name])) := by
  unfold override
  rw [puts]
  cases held : env.lookup o.name with
  | none =>
    rw [taken_of_absent read? _ held] at keeps ⊢
    rw [keeps]
  | some value =>
    cases read : read? (Text.trim value.toList) with
    | none =>
      refine absurd ⟨value, held, fun s => ?_⟩ fine
      rw [reads, read]
      rfl
    | some a =>
      rw [taken_concat_self read? _ held read]
      dsimp only
      rw [reads, read]
      rfl

theorem override_of_fine (known : o ∈ Override.all) (fine : ¬o.Offends env) :
    (s.overridden env looked).override env o = .ok (s.overridden env (looked ++ [o.name])) := by
  simp only [Override.all, List.mem_cons, List.not_mem_nil, or_false] at known
  -- each variable has a setting of its own, which those before it have left alone
  rcases known with rfl | rfl | rfl | rfl | rfl | rfl
  · refine override_of_put (Text.readUnsigned? maxWord) _ (·.tickRate) (fun _ _ => rfl) ?_ rfl fine
    simp [overridden, taken_concat_other, Override.ofNat]
  · refine override_of_put (Text.readUnsigned? maxWord) _ (·.engine.instructionBudget) (fun _ _ => rfl) ?_ rfl fine
    simp [overridden, taken_concat_other, Override.ofNat]
  · refine override_of_put Override.readBool? _ (·.engine.traceEnabled) (fun _ _ => rfl) ?_ rfl fine
    simp [overridden, taken_concat_other]
  · refine override_of_put (Text.readUnsigned? maxLong) _ (·.scheduler.retryBackoff) (fun _ _ => rfl) ?_ rfl fine
    simp [overridden, taken_concat_other, Override.ofNat]
  · refine override_of_put (Text.readUnsigned? maxLong) _ (·.scheduler.syncInterval) (fun _ _ => rfl) ?_ rfl fine
    simp [overridden, taken_concat_other, Override.ofNat]
  · refine override_of_put (Text.readUnsigned? maxLong) _ (·.collectionInterval) (fun _ _ => rfl) ?_ rfl fine
    simp [overridden, taken_concat_other, Override.ofNat]

/-- Variables that do not offend are passed one after another. -/
theorem overrideAll_of_fine {before : List Override} (after : List Override) (known : before ⊆ Override.all)
    (fine : ∀ x ∈ before, ¬x.Offends env) (looked : List String) :
    overrideAll env (before ++ after) (s.overridden env looked) =
      overrideAll env after (s.overridden env (looked ++ before.map (·.name))) := by
  induction before generalizing looked with
  | nil => rw [List.nil_append, List.map_nil, List.append_nil]
  | cons x rest ih =>
    have first : (s.overridden env looked).override env x = .ok (s.overridden env (looked ++ [x.name])) :=
      override_of_fine (known List.mem_cons_self) (fine x List.mem_cons_self)
    have others := ih (List.subset_of_cons_subset known) (fun y later => fine y (List.mem_cons_of_mem _ later))
      (looked ++ [x.name])
    rw [List.cons_append, overrideAll, first]
    dsimp only
    rw [others, List.append_assoc]
    rfl

theorem applyOverrides_of_fine (fine : ∀ o ∈ Override.all, ¬o.Offends env) (s : Settings) :
    s.applyOverrides env = (s.overridden env Override.names, none) := by
  have passed := overrideAll_of_fine (s := s) [] (List.Subset.refl _) fine []
  rw [List.append_nil, overridden_nil] at passed
  exact passed

theorem applyOverrides_of_offends {before after : List Override} (split : Override.all = before ++ o :: after)
    (fine : ∀ x ∈ before, ¬x.Offends env) (offends : o.Offends env) (s : Settings) :
    ∃ value, env.lookup o.name = some value ∧ s.applyOverrides env =
      (s.overridden env (before.map (·.name)), some (.invalidOverride o.name value)) := by
  have known : before ⊆ Override.all := split ▸ List.subset_append_left _ _
  have passed := overrideAll_of_fine (s := s) (o :: after) known fine []
  obtain ⟨value, held, stopped⟩ := override_of_offends offends (s.overridden env (before.map (·.name)))
  refine ⟨value, held, ?_⟩
  rw [overridden_nil, List.nil_append, ← split, overrideAll, stopped] at passed
  exact passed

/-- Of some variables, there is a first one that offends, or none does. -/
theorem fine_or_split (env : List (String × String)) (os : List Override) : (∀ o ∈ os, ¬o.Offends env) ∨
    ∃ before o after, os = before ++ o :: after ∧ (∀ x ∈ before, ¬x.Offends env) ∧ o.Offends env := by
  induction os with
  | nil => exact .inl (List.forall_mem_nil _)
  | cons o rest ih =>
    by_cases offends : o.Offends env
    · exact .inr ⟨[], o, rest, rfl, List.forall_mem_nil _, offends⟩
    · rcases ih with fine | ⟨before, first, after, rfl, fine, offends'⟩
      · exact .inl (List.forall_mem_cons.mpr ⟨offends, fine⟩)
      · exact .inr ⟨o :: before, first, after, rfl, List.forall_mem_cons.mpr ⟨offends, fine⟩, offends'⟩

theorem applyOverrides_eq_none_iff (env : List (String × String)) (s : Settings) :
    (s.applyOverrides env).2 = none ↔ ∀ o ∈ Override.all, ¬o.Offends env := by
  constructor
  · intro done
    rcases fine_or_split env Override.all with fine | ⟨before, o, after, split, fine, offends⟩
    · exact fine
    · obtain ⟨value, _, stopped⟩ := applyOverrides_of_offends split fine offends s
      rw [stopped] at done
      cases done
  · intro fine
    rw [applyOverrides_of_fine fine]

/-- What a file gives; without one, the defaults. -/
def given (file : Option (List UInt8)) : Except SettingsError Settings :=
  file.elim (.ok {}) ofFile

theorem load_of_error {file : Option (List UInt8)} {e : SettingsError} (faulty : given file = .error e) :
    load file env = .error e := by
  cases file with
  | none => cases faulty
  | some bytes =>
    have faulty : ofFile bytes = .error e := faulty
    simp only [load, faulty, bind, Except.bind]

theorem load_of_fine {file : Option (List UInt8)} (found : given file = .ok s)
    (fine : ∀ o ∈ Override.all, ¬o.Offends env) : load file env = .ok (s.overridden env Override.names) := by
  cases file with
  | none =>
    cases found
    simp only [load, bind, Except.bind, pure, Except.pure, applyOverrides_of_fine fine]
  | some bytes =>
    have found : ofFile bytes = .ok s := found
    simp only [load, found, bind, Except.bind, pure, Except.pure, applyOverrides_of_fine fine]

theorem load_of_offends {file : Option (List UInt8)} (found : given file = .ok s) {before after : List Override}
    (split : Override.all = before ++ o :: after) (fine : ∀ x ∈ before, ¬x.Offends env) (offends : o.Offends env) :
    ∃ value, env.lookup o.name = some value ∧ load file env = .error (.invalidOverride o.name value) := by
  obtain ⟨value, held, stopped⟩ := applyOverrides_of_offends split fine offends s
  refine ⟨value, held, ?_⟩
  cases file with
  | none =>
    cases found
    simp only [load, bind, Except.bind, pure, Except.pure, stopped]
    rfl
  | some bytes =>
    have found : ofFile bytes = .ok s := found
    simp only [load, found, bind, Except.bind, stopped]
    rfl

/-- Settings are loaded with all overrides or not at all. -/
theorem load_eq_ok_iff {file : Option (List UInt8)} {t : Settings} : load file env = .ok t ↔
    (∀ o ∈ Override.all, ¬o.Offends env) ∧ ∃ s, given file = .ok s ∧ t = s.overridden env Override.names := by
  constructor
  · intro loaded
    cases found : given file with
    | error e => cases (load_of_error found).symm.trans loaded
    | ok s =>
      rcases fine_or_split env Override.all with fine | ⟨before, o, after, split, fine, offends⟩
      · have same := (load_of_fine found fine).symm.trans loaded
        cases same
        exact ⟨fine, s, rfl, rfl⟩
      · obtain ⟨value, _, refused⟩ := load_of_offends found split fine offends
        cases refused.symm.trans loaded
  · rintro ⟨fine, s, found, rfl⟩
    exact load_of_fine found fine

/-- Variables override settings if none of them has a value that cannot be read: then those that are set
override their settings, and no other setting changes. Otherwise the first of them ends the pass, and is named.
The variables before it have overridden their settings then, and no other setting has changed; but nothing is
loaded. -/
theorem first_offender_ends_the_overrides (env : List (String × String)) (s : Settings) :
    ((s.applyOverrides env).2 = none ↔ ∀ o ∈ Override.all, ¬o.Offends env) ∧
    ((∀ o ∈ Override.all, ¬o.Offends env) → s.applyOverrides env = (s.overridden env Override.names, none)) ∧
    (∀ before o after, Override.all = before ++ o :: after → (∀ x ∈ before, ¬x.Offends env) → o.Offends env →
      ∃ value, env.lookup o.name = some value ∧ s.applyOverrides env =
        (s.overridden env (before.map (·.name)), some (.invalidOverride o.name value))) ∧
    ∀ file t, load file env = .ok t ↔
      (∀ o ∈ Override.all, ¬o.Offends env) ∧ ∃ s, given file = .ok s ∧ t = s.overridden env Override.names :=
  ⟨applyOverrides_eq_none_iff env s, fun fine => applyOverrides_of_fine fine s,
    fun _ _ _ split fine offends => applyOverrides_of_offends split fine offends s, fun _ _ => load_eq_ok_iff⟩

/-- The rate is overridden before the variable that offends is looked at. -/
theorem rate_is_overridden_before_the_offender :
    ({} : Settings).applyOverrides [("BOTFORGE_TICK_HZ", "30"), ("BOTFORGE_TRACE", "maybe")] =
        ({ tickRate := 30 }, some (.invalidOverride "BOTFORGE_TRACE" "maybe")) ∧
      ({ tickRate := 30 } : Settings) ≠ {} := by
  decide +kernel

end Settings

end RobotArena
