import Megatron.Corelib.IoBuffer

/-!
The arithmetic of `corelib/mtimespec.cpp`. Normalised times are compared and added as the numbers
of nanoseconds that they stand for, except by `operator<=`.
-/

namespace Megatron

/-- The struct `mtimespec`, as long as no `long` overflows. -/
@[ext] structure Mtimespec where
  tvSec : ℤ
  tvNsec : ℤ
  deriving DecidableEq, Repr

namespace Mtimespec

def nano : ℤ := 1000000000

def checked (a b : Mtimespec) (less : Bool) : Except Exn Bool :=
  if a.tvNsec > nano then .error (.commonError "if(a.tv_nsec>nano) ")
  else if b.tvNsec > nano then .error (.commonError "if(b.tv_nsec>nano) ")
  else .ok less

def operatorLt (a b : Mtimespec) : Except Exn Bool :=
  checked a b <|
    if a.tvSec ≠ b.tvSec then a.tvSec < b.tvSec
    else if a.tvNsec ≠ b.tvNsec then a.tvNsec < b.tvNsec
    else false

def operatorLe (a b : Mtimespec) : Except Exn Bool :=
  checked a b <|
    if a.tvSec ≤ b.tvSec then true
    else if a.tvSec = b.tvSec then a.tvNsec ≤ b.tvNsec
    else false

/-- `operator+`. The division of C rounds to zero. -/
def operatorAdd (a b : Mtimespec) : Mtimespec where
  tvSec := a.tvSec + b.tvSec + (a.tvNsec + b.tvNsec).tdiv nano
  tvNsec := (a.tvNsec + b.tvNsec).tmod nano

def operatorSub (a b : Mtimespec) : Mtimespec :=
  let r : Mtimespec := ⟨a.tvSec - b.tvSec, a.tvNsec - b.tvNsec⟩
  if r.tvNsec < 0 then ⟨r.tvSec - 1, r.tvNsec + nano⟩ else r

def Normalised (a : Mtimespec) : Prop := 0 ≤ a.tvNsec ∧ a.tvNsec < nano

/-- The number of nanoseconds. -/
def nanoseconds (a : Mtimespec) : ℤ := a.tvSec * nano + a.tvNsec

variable {a b c : Mtimespec}

lemma eq_of_nanoseconds (ha : a.Normalised) (hb : b.Normalised)
    (h : a.nanoseconds = b.nanoseconds) : a = b := by
  simp only [Normalised, nanoseconds, nano] at ha hb h
  ext <;> omega

lemma checked_of_normalised (ha : a.Normalised) (hb : b.Normalised) (less : Bool) :
    checked a b less = .ok less := by
  rw [checked, if_neg (not_lt.mpr ha.2.le), if_neg (not_lt.mpr hb.2.le)]

lemma operatorLt_iff (ha : a.Normalised) (hb : b.Normalised) :
    operatorLt a b = .ok true ↔ a.nanoseconds < b.nanoseconds := by
  rw [operatorLt, checked_of_normalised ha hb, Except.ok.injEq]
  simp only [Normalised, nanoseconds, nano] at *
  split_ifs with hsec hnsec
  · rw [decide_eq_true_iff]
    omega
  · rw [decide_eq_true_iff]
    omega
  · rw [false_iff]
    omega

lemma operatorLe_iff (ha : a.Normalised) (hb : b.Normalised) :
    operatorLe a b = .ok true ↔ a.tvSec ≤ b.tvSec := by
  rw [operatorLe, checked_of_normalised ha hb, Except.ok.injEq]
  split_ifs with hle heq
  · exact iff_of_true rfl hle
  · exact absurd heq.le hle
  · exact iff_of_false not_false hle

lemma Normalised.add (ha : a.Normalised) (hb : b.Normalised) : (operatorAdd a b).Normalised := by
  have hnonneg := add_nonneg ha.1 hb.1
  exact ⟨Int.tmod_nonneg _ hnonneg, Int.tmod_lt_of_pos _ (by decide)⟩

lemma nanoseconds_add (a b : Mtimespec) :
    (operatorAdd a b).nanoseconds = a.nanoseconds + b.nanoseconds := by
  have hdiv := Int.mul_tdiv_add_tmod (a.tvNsec + b.tvNsec) nano
  simp only [nanoseconds, operatorAdd]
  linarith

lemma Normalised.sub (ha : a.Normalised) (hb : b.Normalised) : (operatorSub a b).Normalised := by
  simp only [Normalised, operatorSub, nano] at *
  split_ifs <;> dsimp only <;> omega

lemma nanoseconds_sub (a b : Mtimespec) :
    (operatorSub a b).nanoseconds = a.nanoseconds - b.nanoseconds := by
  simp only [nanoseconds, operatorSub]
  split_ifs <;> ring

structure Laws (a b c : Mtimespec) : Prop where
  irrefl : operatorLt a a ≠ .ok true
  trans : operatorLt a b = .ok true → operatorLt b c = .ok true → operatorLt a c = .ok true
  total : operatorLt a b = .ok true ∨ a = b ∨ operatorLt b a = .ok true
  add_lt : operatorLt a b = .ok true → operatorLt (operatorAdd a c) (operatorAdd b c) = .ok true
  le_iff : operatorLe a b = .ok true ↔ operatorLt a b = .ok true ∨ a = b
  add : (operatorAdd a b).Normalised
  sub : operatorLe b a = .ok true → (operatorSub a b).Normalised
  add_sub : operatorSub (operatorAdd a b) b = a
  add_assoc : operatorAdd (operatorAdd a b) c = operatorAdd a (operatorAdd b c)
  add_comm : operatorAdd a b = operatorAdd b a

lemma le_iff_iff (ha : a.Normalised) (hb : b.Normalised) :
    (operatorLe a b = .ok true ↔ operatorLt a b = .ok true ∨ a = b) ↔
      (a.tvSec = b.tvSec → a.tvNsec ≤ b.tvNsec) := by
  rw [operatorLe_iff ha hb, operatorLt_iff ha hb, Mtimespec.ext_iff]
  simp only [Normalised, nanoseconds, nano] at *
  omega

/-- **Time arithmetic.** `operator<=` looks at the seconds alone. -/
theorem laws_iff (a b c : { t : Mtimespec // t.Normalised }) :
    Laws a.1 b.1 c.1 ↔ (a.1.tvSec = b.1.tvSec → a.1.tvNsec ≤ b.1.tvNsec) := by
  obtain ⟨⟨a, ha⟩, ⟨b, hb⟩, ⟨c, hc⟩⟩ := a, b, c
  have hab := ha.add hb
  refine ⟨fun h => (le_iff_iff ha hb).mp h.le_iff, fun h => ?_⟩
  refine ⟨?_, ?_, ?_, ?_, (le_iff_iff ha hb).mpr h, hab, fun _ => ha.sub hb, ?_, ?_, ?_⟩
  · rw [Ne, operatorLt_iff ha ha]
    exact lt_irrefl _
  · rw [operatorLt_iff ha hb, operatorLt_iff hb hc, operatorLt_iff ha hc]
    exact lt_trans
  · rw [operatorLt_iff ha hb, operatorLt_iff hb ha]
    rcases lt_trichotomy a.nanoseconds b.nanoseconds with hlt | heq | hlt
    · exact .inl hlt
    · exact .inr (.inl (eq_of_nanoseconds ha hb heq))
    · exact .inr (.inr hlt)
  · rw [operatorLt_iff ha hb, operatorLt_iff (ha.add hc) (hb.add hc), nanoseconds_add,
      nanoseconds_add]
    exact fun hlt => add_lt_add_left hlt _
  · refine eq_of_nanoseconds (hab.sub hb) ha ?_
    rw [nanoseconds_sub, nanoseconds_add, add_sub_cancel_right]
  · refine eq_of_nanoseconds (hab.add hc) (ha.add (hb.add hc)) ?_
    simp only [nanoseconds_add, Int.add_assoc]
  · refine eq_of_nanoseconds hab (hb.add ha) ?_
    rw [nanoseconds_add, nanoseconds_add, Int.add_comm]

/-- The code finds one nanosecond no later than none. -/
theorem not_laws_one_zero : ¬ Laws ⟨0, 1⟩ ⟨0, 0⟩ ⟨0, 0⟩ := by
  intro h
  have hle := h.le_iff.mp (by decide)
  exact absurd hle (by decide)

end Mtimespec

end Megatron
