/-
ColumnMasking.Proofs.Sm2.Primality — the count of field elements and the
order of the base point are prime.

A number is prime when some residue modulo it has the order one less than
the number (`lucas_primality`). A `Primality.Step` names such a residue and the
prime factors of that order, and so certifies the number that is one more
than their product. In a list of steps the factors of each are certified
by the ones before it; the first few are small enough to be looked up.
Checking a list takes two powers for every factor (`checkSteps`), and all
numbers certified in a list that passes are prime
(`prime_of_checkSteps`).
-/
import Mathlib.NumberTheory.LucasPrimality
import Mathlib.Tactic.NormNum.Prime
import ColumnMasking.Proofs.Sm2.ResidueRing
import ColumnMasking.Sm2.Curve

namespace ColumnMasking.Sm2

namespace Primality

/-! ## 1. Certificates -/

/-- A claim that one more than a product of primes is prime, with a
residue to show it. -/
structure Step where
  root : Nat
  factors : List Nat

namespace Step

/-- The number that is claimed to be prime. -/
def number (step : Step) : Nat := step.factors.prod + 1

instance (step : Step) : NeZero step.number := ⟨Nat.succ_ne_zero _⟩

/-- The root as a residue. -/
def residue (step : Step) : Fin step.number := Fin.ofNat step.number step.root

/-- The factors are known, and the order of the root is their product:
it divides the product and no part of it that lacks a factor. -/
def check (known : List Nat) (step : Step) : Bool :=
  power step.residue step.factors.prod = 1
    && step.factors.all fun q =>
      decide (q ∈ known) && decide (power step.residue (step.factors.prod / q) ≠ 1)

/-- A step that passes certifies its number. -/
theorem prime_of_check {known : List Nat} (hknown : ∀ q ∈ known, q.Prime) {step : Step}
    (h : step.check known = true) : step.number.Prime := by
  simp only [check, Bool.and_eq_true, decide_eq_true_eq, List.all_eq_true] at h
  obtain ⟨hfull, hparts⟩ := h
  have hless : step.number - 1 = step.factors.prod := rfl
  refine lucas_primality step.number (toRing step.residue) ?_ ?_
  · rw [hless, ← toRing_power, hfull, toRing_one]
  · intro q hq hdvd
    rw [hless] at hdvd ⊢
    obtain ⟨f, hf, hqf⟩ := (Prime.dvd_prod_iff hq.prime).mp hdvd
    obtain ⟨hmem, hpart⟩ := hparts f hf
    have hsame : q = f := (Nat.prime_dvd_prime_iff_eq hq (hknown f hmem)).mp hqf
    rw [hsame, ← toRing_power]
    intro hone
    exact hpart (toRing_injective (hone.trans toRing_one.symm))

end Step

/-- Each step passes, given the numbers known and those of the steps
before it. -/
def checkSteps : (known : List Nat) → List Step → Bool
  | _, [] => true
  | known, step :: steps => step.check known && checkSteps (step.number :: known) steps

/-- The numbers of a list of steps that pass are prime. -/
theorem prime_of_checkSteps : ∀ {known : List Nat} {steps : List Step},
    (∀ q ∈ known, q.Prime) → checkSteps known steps = true →
    ∀ n ∈ steps.map Step.number, n.Prime
  | _, [], _, _, _, hn => by simp at hn
  | known, step :: steps, hknown, h, n, hn => by
    rw [checkSteps, Bool.and_eq_true] at h
    have hstep := Step.prime_of_check hknown h.1
    have hlater : ∀ q ∈ step.number :: known, q.Prime := by
      intro q hq
      rcases List.mem_cons.mp hq with rfl | hq
      · exact hstep
      · exact hknown q hq
    rw [List.map_cons] at hn
    rcases List.mem_cons.mp hn with rfl | hn
    · exact hstep
    · exact prime_of_checkSteps hlater h.2 n hn

/-! ## 2. The two primes -/

/-- The primes that the steps start from. -/
def smallPrimes : List Nat :=
  [2, 3, 5, 7, 11, 13, 31, 41, 43, 53, 59, 61, 67, 71, 79, 97, 103, 127, 181, 233, 337, 367, 719,
   769, 823, 1013, 1213, 2473, 3049, 4957, 5303, 5711, 5801, 7759, 12149, 14057, 30223, 34511,
   54983, 71209, 84163, 110899, 179429, 363761]

/-- The steps up to the count of field elements and the order. -/
def steps : List Step :=
  [⟨3, [2, 2, 2, 7, 54983]⟩,
   ⟨2, [2, 3079049]⟩,
   ⟨3, [2, 2, 2, 2, 67, 79, 97]⟩,
   ⟨2, [2, 11, 71, 5801]⟩,
   ⟨2, [2, 1013, 4957]⟩,
   ⟨2, [2, 3, 71, 181, 233]⟩,
   ⟨2, [2, 43, 103, 12149]⟩,
   ⟨2, [2, 3, 3, 59, 110899]⟩,
   ⟨6, [2, 2, 3, 117774739]⟩,
   ⟨7, [2, 5, 3049, 84163]⟩,
   ⟨3, [2, 2, 2, 2, 2, 7, 7, 337, 5711]⟩,
   ⟨3, [2, 3, 61, 5303, 179429]⟩,
   ⟨3, [2, 2, 2, 41, 719, 10042883]⟩,
   ⟨2, [2, 769, 3017783777]⟩,
   ⟨2, [2, 31, 79, 127, 9061163]⟩,
   ⟨3, [2, 3, 3, 5636460199499]⟩,
   ⟨3, [2, 2, 2, 7, 367, 2473, 8214737]⟩,
   ⟨3, [2, 2, 2, 2, 2, 43, 2368433183657]⟩,
   ⟨3, [2, 3, 7, 11, 823, 34511, 363761]⟩,
   ⟨2, [2, 13, 1213, 71209, 6158099, 4773264379806847]⟩,
   ⟨6, [2, 2, 3, 3, 17965699, 107615843, 2566129871, 101456283590983]⟩,
   ⟨3, [2, 2, 2, 5, 53, 3258964060712033, 18120927127286907576013935251791662753637]⟩,
   ⟨3, [2, 3, 7759, 14057, 1413296869,
     125197554539772723432468576818475380947471091418362477724521]⟩,
   ⟨13, [2, 43, 30223, 348253387243, 4641351449027, 417514796639753,
     66013261729388519804782124120027]⟩]

/-- The small primes are prime. -/
theorem prime_of_mem_smallPrimes : ∀ q ∈ smallPrimes, q.Prime := by
  norm_num [smallPrimes]

/-- All numbers of the steps are prime. -/
theorem prime_of_mem_steps : ∀ n ∈ steps.map Step.number, n.Prime :=
  prime_of_checkSteps prime_of_mem_smallPrimes (by decide +kernel)

end Primality

/-- The count of field elements is prime. -/
theorem prime_prime : prime.Prime :=
  Primality.prime_of_mem_steps prime (by decide)

/-- The order of the base point is prime. -/
theorem prime_order : order.Prime :=
  Primality.prime_of_mem_steps order (by decide)

instance : Fact prime.Prime := ⟨prime_prime⟩

instance : Fact order.Prime := ⟨prime_order⟩

end ColumnMasking.Sm2
