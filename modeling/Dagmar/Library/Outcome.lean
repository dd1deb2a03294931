import Mathlib.Data.List.Forall2

/-! Computations that may raise. A computation succeeds exactly when each of its
parts does, so a success is taken apart from the front; forgetting the raised
error keeps only whether a computation succeeds and with what. -/

namespace Dagmar.Library.Outcome

variable {ε α β : Type}

def raiseIf (condition : Prop) [Decidable condition] (error : ε) : Except ε Unit :=
  if condition then .error error else .ok ()

/-- The value, or the error raised in its absence. -/
def require (value : Option α) (error : ε) : Except ε α :=
  match value with
  | some value => .ok value
  | none => .error error

@[simp] theorem bind_eq_ok {first : Except ε α} {next : α → Except ε β} {result : β} :
    (first >>= next) = .ok result ↔ ∃ value, first = .ok value ∧ next value = .ok result := by
  cases first with
  | error raised =>
    constructor
    · intro impossible
      cases impossible
    · rintro ⟨_, impossible, _⟩
      cases impossible
  | ok value =>
    constructor
    · exact fun done => ⟨value, rfl, done⟩
    · rintro ⟨_, same, done⟩
      cases same
      exact done

/-- A computation raises what its first part raises, or what the rest does after it. -/
theorem bind_eq_error {first : Except ε α} {next : α → Except ε β} {raised : ε} :
    (first >>= next) = .error raised ↔ first = .error raised ∨ ∃ value, first = .ok value ∧ next value = .error raised := by
  cases first with
  | error before =>
    constructor
    · exact fun done => .inl (congrArg Except.error (Except.error.inj done))
    · rintro (same | ⟨_, impossible, _⟩)
      · exact congrArg Except.error (Except.error.inj same)
      · cases impossible
  | ok value =>
    constructor
    · exact fun done => .inr ⟨value, rfl, done⟩
    · rintro (impossible | ⟨_, same, done⟩)
      · cases impossible
      · cases same
        exact done

theorem ok_bind (value : α) (next : α → Except ε β) : (Except.ok value >>= next) = next value := rfl

@[simp] theorem pure_eq_ok {value result : α} : (pure value : Except ε α) = .ok result ↔ value = result := by
  simp [pure, Except.pure]

@[simp] theorem map_eq_ok {outcome : Except ε α} {f : α → β} {result : β} :
    f <$> outcome = .ok result ↔ ∃ value, outcome = .ok value ∧ f value = result := by
  cases outcome <;> simp [Functor.map, Except.map]

theorem mapError_ok {ε' : Type} (value : α) (f : ε → ε') : (Except.ok value).mapError f = .ok value := rfl

theorem mapError_error {ε' : Type} (raised : ε) (f : ε → ε') : (Except.error raised : Except ε α).mapError f = .error (f raised) := rfl

/-- Raising another error in an error's place changes no success. -/
@[simp] theorem mapError_eq_ok {ε' : Type} {outcome : Except ε α} {f : ε → ε'} {result : α} :
    outcome.mapError f = .ok result ↔ outcome = .ok result := by
  cases outcome with
  | error raised => simp [mapError_error]
  | ok value => simp [mapError_ok]

@[simp] theorem raiseIf_eq_ok {condition : Prop} [Decidable condition] {error : ε} {done : Unit} :
    raiseIf condition error = .ok done ↔ ¬ condition := by
  by_cases holds : condition <;> simp [raiseIf, holds]

theorem raiseIf_eq_error {condition : Prop} [Decidable condition] {error raised : ε} :
    raiseIf condition error = .error raised ↔ condition ∧ error = raised := by
  by_cases holds : condition <;> simp [raiseIf, holds]

@[simp] theorem require_eq_ok {value : Option α} {error : ε} {result : α} :
    require value error = .ok result ↔ value = some result := by
  cases value <;> simp [require]

theorem require_eq_error {value : Option α} {error raised : ε} :
    require value error = .error raised ↔ value = none ∧ error = raised := by
  cases value <;> simp [require]

/-- A loop of checks passes exactly when every check does. -/
theorem forM_eq_ok {items : List α} {check : α → Except ε Unit} {done : Unit} :
    forM items check = .ok done ↔ ∀ item ∈ items, check item = .ok () := by
  induction items with
  | nil => simp [pure, Except.pure]
  | cons item items ih =>
    rw [List.forM_cons, bind_eq_ok, List.forall_mem_cons, ← ih]
    constructor
    · rintro ⟨⟨⟩, first, rest⟩
      exact ⟨first, rest⟩
    · rintro ⟨first, rest⟩
      exact ⟨_, first, rest⟩

/-- What holds before a loop and is kept by each turn holds after it. -/
theorem foldlM_invariant {items : List α} {turn : β → α → Except ε β} {start result : β} (property : β → Prop)
    (holds : property start) (kept : ∀ current item next, item ∈ items → property current →
      turn current item = .ok next → property next)
    (done : items.foldlM turn start = .ok result) : property result := by
  induction items generalizing start with
  | nil =>
    rw [List.foldlM_nil, pure_eq_ok] at done
    exact done ▸ holds
  | cons item items ih =>
    rw [List.foldlM_cons, bind_eq_ok] at done
    obtain ⟨next, first, rest⟩ := done
    exact ih (kept start item next (by simp) holds first)
      (fun current other after member => kept current other after (by simp [member])) rest

/-- Every item of a loop has its turn, and the loop goes on from there. -/
theorem foldlM_turn {items : List α} {turn : β → α → Except ε β} {start result : β}
    (done : items.foldlM turn start = .ok result) {item : α} (member : item ∈ items) :
    ∃ (current next : β) (rest : List α), turn current item = .ok next ∧ rest.foldlM turn next = .ok result := by
  induction items generalizing start with
  | nil => cases member
  | cons first items ih =>
    rw [List.foldlM_cons, bind_eq_ok] at done
    obtain ⟨next, turned, rest⟩ := done
    rcases List.mem_cons.mp member with rfl | later
    · exact ⟨start, next, items, turned, rest⟩
    · exact ih rest later

/-- The results of a loop stand beside its items. -/
theorem mapM_forall₂ {items : List α} {f : α → Option β} {results : List β} (done : items.mapM f = some results) :
    List.Forall₂ (fun item result => f item = some result) items results := by
  induction items generalizing results with
  | nil =>
    cases done
    exact .nil
  | cons item items ih =>
    simp only [List.mapM_cons, Option.bind_eq_bind, Option.bind_eq_some_iff, Option.pure_def, Option.some.injEq] at done
    obtain ⟨first, found, rest, others, rfl⟩ := done
    exact .cons found (ih others)

/-- Each result of a loop that gives a value or nothing comes from one of its items. -/
theorem mem_of_mapM {items : List α} {f : α → Option β} {results : List β} (done : items.mapM f = some results) {result : β}
    (member : result ∈ results) : ∃ item ∈ items, f item = some result := by
  induction items generalizing results with
  | nil =>
    cases done
    cases member
  | cons item items ih =>
    simp only [List.mapM_cons, Option.bind_eq_bind, Option.bind_eq_some_iff, Option.pure_def, Option.some.injEq] at done
    obtain ⟨first, found, rest, others, rfl⟩ := done
    rcases List.mem_cons.mp member with rfl | later
    · exact ⟨item, List.mem_cons_self, found⟩
    · obtain ⟨other, listed, same⟩ := ih others later
      exact ⟨other, List.mem_cons_of_mem _ listed, same⟩

/-- A loop of computations succeeds exactly when each of them does. -/
theorem mapM_ok_iff {items : List α} {f : α → Except ε β} :
    (∃ results, items.mapM f = .ok results) ↔ ∀ item ∈ items, ∃ result, f item = .ok result := by
  induction items with
  | nil => simp [pure_eq_ok]
  | cons item items ih =>
    rw [List.forall_mem_cons, ← ih]
    simp only [List.mapM_cons, bind_eq_ok, pure_eq_ok]
    constructor
    · intro ⟨_, first, found, rest, others, _⟩
      exact ⟨⟨first, found⟩, rest, others⟩
    · intro ⟨⟨first, found⟩, rest, others⟩
      exact ⟨first :: rest, first, found, rest, others, rfl⟩

/-- The results of a loop of computations stand beside its items. -/
theorem mapM_ok_forall₂ {items : List α} {f : α → Except ε β} {results : List β} (done : items.mapM f = .ok results) :
    List.Forall₂ (fun item result => f item = .ok result) items results := by
  induction items generalizing results with
  | nil =>
    cases done
    exact .nil
  | cons item items ih =>
    simp only [List.mapM_cons, bind_eq_ok, pure_eq_ok] at done
    obtain ⟨first, found, rest, others, rfl⟩ := done
    exact .cons found (ih others)

/-- Each result that stands beside an item has one. -/
theorem exists_of_forall₂ {relates : α → β → Prop} {items : List α} {results : List β}
    (beside : List.Forall₂ relates items results) {result : β} (member : result ∈ results) :
    ∃ item ∈ items, relates item result := by
  induction beside with
  | nil => cases member
  | cons related rest ih =>
    rcases List.mem_cons.mp member with rfl | later
    · exact ⟨_, List.mem_cons_self, related⟩
    · obtain ⟨item, listed, found⟩ := ih later
      exact ⟨item, List.mem_cons_of_mem _ listed, found⟩

/-- Lists whose items stand side by side have the same values where each pair has. -/
theorem map_eq_of_forall₂ {γ : Type*} {relates : α → β → Prop} {f : α → γ} {g : β → γ} {items : List α} {results : List β}
    (beside : List.Forall₂ relates items results) (same : ∀ item result, relates item result → g result = f item) :
    results.map g = items.map f := by
  induction beside with
  | nil => rfl
  | cons first _ ih => rw [List.map_cons, List.map_cons, ih, same _ _ first]

/-- A loop raises what one of its items raises. -/
theorem mapM_eq_error {items : List α} {f : α → Except ε β} {raised : ε} (failed : items.mapM f = .error raised) :
    ∃ item ∈ items, f item = .error raised := by
  induction items with
  | nil => cases failed
  | cons item items ih =>
    rw [List.mapM_cons, bind_eq_error] at failed
    rcases failed with first | ⟨_, _, failed⟩
    · exact ⟨item, List.mem_cons_self, first⟩
    · rw [bind_eq_error] at failed
      rcases failed with later | ⟨_, _, impossible⟩
      · obtain ⟨other, member, same⟩ := ih later
        exact ⟨other, List.mem_cons_of_mem _ member, same⟩
      · cases impossible

/-- A loop gives all its values when each of its items has one. -/
theorem mapM_some {f : α → Option β} {g : α → β} {items : List α} (each : ∀ item ∈ items, f item = some (g item)) :
    items.mapM f = some (items.map g) := by
  induction items with
  | nil => rfl
  | cons item items ih =>
    obtain ⟨first, rest⟩ := List.forall_mem_cons.mp each
    simp [List.mapM_cons, first, ih rest]

/-- A loop of computations gives all their values when each of them has one. -/
theorem mapM_ok {f : α → Except ε β} {g : α → β} {items : List α} (each : ∀ item ∈ items, f item = .ok (g item)) :
    items.mapM f = .ok (items.map g) := by
  induction items with
  | nil => rfl
  | cons item items ih =>
    obtain ⟨first, rest⟩ := List.forall_mem_cons.mp each
    rw [List.mapM_cons, first, ok_bind, ih rest]
    rfl

section toOption

@[simp] theorem toOption_bind (first : Except ε α) (next : α → Except ε β) :
    (first >>= next).toOption = first.toOption.bind fun value => (next value).toOption := by
  cases first <;> rfl

@[simp] theorem toOption_pure (value : α) : (pure value : Except ε α).toOption = some value := rfl

@[simp] theorem toOption_ok (value : α) : (Except.ok value : Except ε α).toOption = some value := rfl

@[simp] theorem toOption_error (error : ε) : (Except.error error : Except ε α).toOption = none := rfl

@[simp] theorem toOption_map (f : α → β) (outcome : Except ε α) : (f <$> outcome).toOption = outcome.toOption.map f := by
  cases outcome <;> rfl

@[simp] theorem toOption_raiseIf (condition : Prop) [Decidable condition] (error : ε) :
    (raiseIf condition error).toOption = if condition then none else some () := by
  by_cases holds : condition <;> simp [raiseIf, holds, Except.toOption]

@[simp] theorem toOption_require (value : Option α) (error : ε) : (require value error).toOption = value := by
  cases value <;> rfl

theorem toOption_eq_some {outcome : Except ε α} {value : α} : outcome.toOption = some value ↔ outcome = .ok value := by
  cases outcome <;> simp [Except.toOption]

end toOption

end Dagmar.Library.Outcome
