import Mathlib.Data.List.TakeWhile
import Megatron.Corelib.Streams

/-!
Strings: `c_str` and `substr` of `std::string`, `std::map::insert` with a string as the key, and
`CUtils::splitString` and `CUtils::splitStringDQ` (`main/CUtils.cpp`).
-/

namespace Megatron

open Library

/-- The C string that `c_str()` points to. -/
def cStr (s : Bytes) : Bytes := s.takeWhile (· != 0#8)

lemma cStr_eq_self {s : Bytes} (h : ∀ c ∈ s, c ≠ 0#8) : cStr s = s :=
  List.takeWhile_eq_self_iff.2 fun c hc => by simpa using h c hc

/-- The conversion of an `int` to `size_t`. -/
def toSize (n : ℤ) : ℕ := (n % 2 ^ 64).toNat

@[simp] lemma toSize_zero : toSize 0 = 0 := rfl

/-- `std::string::substr`; the arguments are converted to `size_t`. -/
def substr {ε : Type} (outOfRange : ε) (s : Bytes) (pos n : ℤ) : Except ε Bytes :=
  if s.length < toSize pos then .error outOfRange else .ok ((s.drop (toSize pos)).take (toSize n))

/-- `std::map::insert`. -/
def insertKey {α : Type} (m : List (Bytes × α)) (k : Bytes) (v : α) : List (Bytes × α) :=
  insertBy (lexLt (Streamable.intLt false)) Prod.fst (k, v) m

/-- `std::sregex_token_iterator`: an empty last token is left out. -/
def resplit (seps s : Bytes) : List Bytes :=
  let parts := s.splitOnP fun c => c ∈ seps
  if 1 < parts.length ∧ parts.getLast? = some [] then parts.dropLast else parts

/-- `CUtils::splitString`. -/
def splitString (seps src : Bytes) : List Bytes :=
  if src = [] then [] else (resplit seps src).filter fun z => z ≠ []

/-- `CUtils::splitStringDQ`, the same for a `std::deque`. -/
def splitStringDQ (seps src : Bytes) : List Bytes := splitString seps src

lemma filter_resplit (seps s : Bytes) : (resplit seps s).filter (fun z => z ≠ []) =
    (s.splitOnP fun c => c ∈ seps).filter fun z => z ≠ [] := by
  rw [resplit]
  split_ifs with hlast
  · obtain ⟨parts, hparts⟩ := List.getLast?_eq_some_iff.mp hlast.2
    rw [hparts, List.dropLast_concat, List.filter_append]
    simp
  · rfl

/-- The parts that are not empty. -/
lemma splitString_eq (seps s : Bytes) :
    splitString seps s = (s.splitOnP fun c => c ∈ seps).filter fun z => z ≠ [] := by
  rw [splitString]
  split_ifs with hnil
  · rw [hnil]
    rfl
  · exact filter_resplit seps s

lemma mem_splitString {seps part s : Bytes} : part ∈ splitString seps s ↔
    part ∈ (s.splitOnP fun c => c ∈ seps) ∧ part ≠ [] := by
  rw [splitString_eq, List.mem_filter]
  simp

end Megatron
