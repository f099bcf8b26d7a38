/-
ColumnMasking.Proofs.FirstFault — calls whose failure is decided by the
first fault in a list.

A call in several steps looks for one fault after the other. `DecidedBy` says
of an outcome that the first fault that applies gives it its class of
failure, and what holds of it if none applies. It is proved step by step: a
step that succeeds unless one of its faults applies is followed by the
faults of the steps after it (`DecidedBy.bind`).

Nothing is said of the order in which the program tests the conditions, only
of what a caller sees.
-/
import ColumnMasking.Proofs.CallResults

namespace ColumnMasking

/-! ## 1. Outcomes -/

section

variable {α β : Type}

def Succeeds (outcome : Except Error α) : Prop :=
  ∃ a, outcome = .ok a

/-- The outcome is a failure of the class. -/
def FailsAs (outcome : Except Error α) (kind : ErrorKind) : Prop :=
  ∃ error, outcome = .error error ∧ error.kind = kind

/-- The outcome is decided by the first fault that applies, a failure of the
class that goes with it. -/
def DecidedBy (outcome : Except Error α) :
    (faults : List (Prop × ErrorKind)) → (otherwise : Except Error α → Prop) → Prop
  | [], otherwise => otherwise outcome
  | (fault, kind) :: faults, otherwise =>
    (fault → FailsAs outcome kind) ∧ (¬ fault → DecidedBy outcome faults otherwise)

theorem Succeeds.map {r : Except Error α} (h : Succeeds r) (f : α → β) : Succeeds (r.map f) := by
  obtain ⟨a, rfl⟩ := h
  exact ⟨f a, rfl⟩

/-- What succeeds does not fail. -/
theorem Succeeds.ne_error {r : Except Error α} (h : Succeeds r) (error : Error) :
    r ≠ .error error := by
  obtain ⟨a, rfl⟩ := h
  exact nofun

theorem FailsAs.kind_eq {r : Except Error α} {kind : ErrorKind} {error : Error}
    (h : FailsAs r kind) (herror : r = .error error) : error.kind = kind := by
  obtain ⟨error', herror', hkind⟩ := h
  obtain rfl := Except.error.inj (herror.symm.trans herror')
  exact hkind

theorem FailsAs.map {r : Except Error α} {kind : ErrorKind} (h : FailsAs r kind) (f : α → β) :
    FailsAs (r.map f) kind := by
  obtain ⟨error, rfl, hkind⟩ := h
  exact ⟨error, rfl, hkind⟩

/-- A failed step fails all of the steps. -/
theorem FailsAs.bind {r : Except Error α} {kind : ErrorKind} (h : FailsAs r kind)
    (next : α → Except Error β) : FailsAs (r >>= next) kind := by
  obtain ⟨error, rfl, hkind⟩ := h
  exact ⟨error, rfl, hkind⟩

/-! ## 2. Faults in turn -/

namespace DecidedBy

variable {outcome : Except Error α} {fault : Prop} {kind : ErrorKind}
  {faults : List (Prop × ErrorKind)} {otherwise : Except Error α → Prop}

theorem of_fault (hfault : fault) (h : FailsAs outcome kind) :
    DecidedBy outcome ((fault, kind) :: faults) otherwise :=
  ⟨fun _ => h, fun hnot => absurd hfault hnot⟩

theorem of_not (hnot : ¬ fault) (h : DecidedBy outcome faults otherwise) :
    DecidedBy outcome ((fault, kind) :: faults) otherwise :=
  ⟨fun hfault => absurd hfault hnot, fun _ => h⟩

/-- A result of which only the error is told in other words fails as these
say, unless it was there. -/
theorem mapError {ε : Type} {r : Except ε α} {g : ε → Error}
    (hkind : ∀ cause, (g cause).kind = kind) :
    DecidedBy (r.mapError g) [(∀ a, r ≠ .ok a, kind)] Succeeds := by
  cases r with
  | error cause => exact .of_fault nofun ⟨g cause, rfl, hkind cause⟩
  | ok a => exact .of_not (fun h => h a rfl) ⟨a, rfl⟩

/-- What fails in one class alone is decided by the condition under which it
succeeds. -/
theorem of_succeeds_iff {condition : Prop} (hiff : Succeeds outcome ↔ condition)
    (hkind : ∀ error, outcome = .error error → error.kind = kind) :
    DecidedBy outcome [(¬ condition, kind)] Succeeds := by
  cases houtcome : outcome with
  | error error =>
    refine .of_fault ?_ ⟨error, rfl, hkind error houtcome⟩
    intro hcondition
    exact (hiff.mpr hcondition).ne_error error houtcome
  | ok a => exact .of_not (not_not_intro (hiff.mp ⟨a, houtcome⟩)) ⟨a, rfl⟩

/-- The faults of a second step come after those of the first. -/
theorem bind {r : Except Error α} {next : α → Except Error β} {more : List (Prop × ErrorKind)}
    {otherwise : Except Error β → Prop} (h : DecidedBy r faults Succeeds)
    (hnext : ∀ a, r = .ok a → DecidedBy (next a) more otherwise) :
    DecidedBy (r >>= next) (faults ++ more) otherwise := by
  induction faults with
  | nil =>
    obtain ⟨a, rfl⟩ := h
    exact hnext a rfl
  | cons first faults ih =>
    obtain ⟨hfault, hnot⟩ := h
    exact ⟨fun hf => (hfault hf).bind next, fun hf => ih (hnot hf)⟩

/-- What is given can be transformed. -/
theorem map {r : Except Error α} {f : α → β} {otherwise : Except Error α → Prop}
    {otherwise' : Except Error β → Prop} (h : DecidedBy r faults otherwise)
    (hmap : otherwise r → otherwise' (r.map f)) : DecidedBy (r.map f) faults otherwise' := by
  induction faults with
  | nil => exact hmap h
  | cons first faults ih =>
    obtain ⟨hfault, hnot⟩ := h
    exact ⟨fun hf => (hfault hf).map f, fun hf => ih (hnot hf)⟩

/-- What holds where no fault applies can be told in other words. -/
theorem imp {otherwise' : Except Error α → Prop} (h : DecidedBy outcome faults otherwise)
    (himp : otherwise outcome → otherwise' outcome) : DecidedBy outcome faults otherwise' := by
  induction faults with
  | nil => exact himp h
  | cons first faults ih =>
    obtain ⟨hfault, hnot⟩ := h
    exact ⟨hfault, fun hf => ih (hnot hf)⟩

/-- A failure has the class of one of the faults, unless none applies. -/
theorem kind_mem {error : Error} (h : DecidedBy outcome faults otherwise)
    (herror : outcome = .error error) :
    error.kind ∈ faults.map Prod.snd ∨ otherwise outcome := by
  induction faults with
  | nil => exact .inr h
  | cons first faults ih =>
    obtain ⟨hfault, hnot⟩ := h
    by_cases hf : first.1
    · rw [(hfault hf).kind_eq herror]
      exact .inl List.mem_cons_self
    · exact (ih (hnot hf)).imp_left (List.mem_cons_of_mem _)

end DecidedBy
end
end ColumnMasking
