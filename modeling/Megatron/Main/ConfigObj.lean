import Mathlib.Data.Finset.Insert
import Megatron.Corelib.SockaddrText
import Megatron.Utils.UrlDecoding

/-!
The configuration of a node (`main/configObj.cpp`): sets of strings and of addresses, from the
environment, from the loaded configuration or from the default of the caller.
-/

namespace Megatron

open List

open Library.Http (ascii)
open Library (exists_part_iff)

def strupper (s : Bytes) : Bytes := s.map fun z => BitVec.ofNat 8 (Utils.upper z)

def join (pattern : Bytes) : List Bytes → Bytes
  | [] => []
  | [s] => s
  | s :: arr => s ++ pattern ++ join pattern arr

/-! ### The getters -/

/-- The class `ConfigObj`; threads are numbers. -/
structure ConfigObj where
  /-- A value, and whether it has been used. -/
  container : Bytes → Option (Bytes × Bool)
  prefixes : ℕ → Option (List Bytes)

structure Environment where
  getenv : Bytes → Option Bytes
  clean : ∀ name s, getenv name = some s → 0#8 ∉ s

inductive Origin
  | environment
  | configuration
  | default

namespace ConfigObj

variable (E : Environment) (c : ConfigObj) (thread : ℕ)

def getPath (name : Bytes) : Bytes := join (ascii "_") ((c.prefixes thread).getD [] ++ [name])

def getPath2 (name : Bytes) : Bytes := name

/-- `i->second.second = true`. -/
def markUsed (name : Bytes) : ConfigObj :=
  { c with
    container := Function.update c.container name
      ((c.container name).map fun entry => (entry.1, true)) }

def value (name defv : Bytes) : (Origin × Bytes) × ConfigObj :=
  match E.getenv (cStr name) with
  | some s => ((.environment, s), c)
  | none =>
    match c.container name with
    | some entry => ((.configuration, entry.1), c.markUsed name)
    | none => ((.default, defv), c)

def stringsetWith (seps : Origin → Bytes) (name defv : Bytes) : Finset Bytes × ConfigObj :=
  let found := c.value E name defv
  ((splitString (seps found.1.1) found.1.2).toFinset, found.2)

def getStringset (name defv : Bytes) : Finset Bytes × ConfigObj :=
  c.stringsetWith E
    (fun
      | .environment => ascii ",|"
      | .configuration => ascii ",|;"
      | .default => ascii ",|")
    (c.getPath thread name) defv

def getStringset2 (name defv : Bytes) : Finset Bytes × ConfigObj :=
  c.stringsetWith E
    (fun
      | .environment => ascii ",|;"
      | .configuration => ascii ",|;"
      | .default => ascii ",|")
    (getPath2 name) defv

end ConfigObj

section

variable {α : Type} [DecidableEq α] (init : Bytes → Except Exn α)

/-- The loop of `get_tcpaddr` and `get_tcpaddr2` over the items. -/
def addresses : List Bytes → Finset α → Except Exn (Finset α)
  | [], ret => .ok ret
  | v :: vz, ret =>
    if strupper v = ascii "NONE" then addresses vz ret
    else do
      let a ← init v
      addresses vz (insert a ret)

variable (E : Environment) (c : ConfigObj) (thread : ℕ)

def ConfigObj.getTcpaddr (name defv : Bytes) : Except Exn (Finset α) × ConfigObj :=
  let found := c.value E (c.getPath thread name) defv
  (addresses init (resplit (ascii ";, ") found.1.2) ∅, found.2)

def ConfigObj.getTcpaddr2 (name defv : Bytes) : Except Exn (Finset α) × ConfigObj :=
  let found := c.value E (getPath2 name) defv
  (addresses init (splitString (ascii ";, ") (cStr found.1.2)) ∅, found.2)

end

/-! ### Where a value comes from -/

structure Situation (v : Bytes) where
  E : Environment
  c : ConfigObj
  thread : ℕ
  name : Bytes
  defv : Bytes
  noPrefix : c.prefixes thread = none ∨ c.prefixes thread = some []
  comes : E.getenv (cStr name) = some v ∨
    E.getenv (cStr name) = none ∧
      ((∃ used, c.container name = some (v, used)) ∨ c.container name = none ∧ defv = v)

open ConfigObj

namespace Situation

variable {v : Bytes} (s : Situation v)

/-- What `get_stringset` returns. -/
def stringset : Finset Bytes := (s.c.getStringset s.E s.thread s.name s.defv).1

/-- What `get_stringset2` returns. -/
def stringset2 : Finset Bytes := (s.c.getStringset2 s.E s.name s.defv).1

variable {α : Type} [DecidableEq α] (init : Bytes → Except Exn α)

/-- What `get_tcpaddr` returns, if it returns. -/
def tcpaddr : Option (Finset α) := (s.c.getTcpaddr init s.E s.thread s.name s.defv).1.toOption

/-- What `get_tcpaddr2` returns, if it returns. -/
def tcpaddr2 : Option (Finset α) := (s.c.getTcpaddr2 init s.E s.name s.defv).1.toOption

lemma getPath_eq : s.c.getPath s.thread s.name = s.name := by
  rcases s.noPrefix with h | h <;> rw [getPath, h] <;> rfl

lemma value_eq : ∃ origin c', s.c.value s.E s.name s.defv = ((origin, v), c') := by
  rw [value]
  rcases s.comes with h | ⟨h, ⟨used, hc⟩ | ⟨hc, hdefv⟩⟩
  · exact ⟨_, _, by rw [h]⟩
  · exact ⟨_, _, by rw [h, hc]⟩
  · exact ⟨_, _, by rw [h, hc, hdefv]⟩

lemma tcpaddr_eq : s.tcpaddr init = (addresses init (resplit (ascii ";, ") v) ∅).toOption := by
  obtain ⟨origin, c', hvalue⟩ := s.value_eq
  rw [tcpaddr, getTcpaddr, getPath_eq, hvalue]

lemma tcpaddr2_eq :
    s.tcpaddr2 init = (addresses init (splitString (ascii ";, ") (cStr v)) ∅).toOption := by
  obtain ⟨origin, c', hvalue⟩ := s.value_eq
  rw [tcpaddr2, getTcpaddr2, getPath2, hvalue]

lemma stringset_eq : s.stringset = (splitString (ascii ",|") v).toFinset ∨
    s.stringset = (splitString (ascii ",|;") v).toFinset := by
  obtain ⟨origin, c', hvalue⟩ := s.value_eq
  rw [stringset, getStringset, stringsetWith, getPath_eq, hvalue]
  cases origin with
  | environment | default => exact .inl rfl
  | configuration => exact .inr rfl

lemma stringset2_eq : s.stringset2 = (splitString (ascii ",|") v).toFinset ∨
    s.stringset2 = (splitString (ascii ",|;") v).toFinset := by
  obtain ⟨origin, c', hvalue⟩ := s.value_eq
  rw [stringset2, getStringset2, stringsetWith, getPath2, hvalue]
  cases origin with
  | environment | configuration => exact .inr rfl
  | default => exact .inl rfl

def noEnvironment : Environment where
  getenv _ := none
  clean _ _ h := by cases h

def loaded (v : Bytes) : Situation v where
  E := noEnvironment
  c := ⟨fun _ => some (v, false), fun _ => none⟩
  thread := 0
  name := ascii "name"
  defv := []
  noPrefix := .inl rfl
  comes := .inr ⟨rfl, .inl ⟨false, rfl⟩⟩

def defaulted (v : Bytes) : Situation v where
  E := noEnvironment
  c := ⟨fun _ => none, fun _ => none⟩
  thread := 0
  name := ascii "name"
  defv := v
  noPrefix := .inl rfl
  comes := .inr ⟨rfl, .inr ⟨rfl, rfl⟩⟩

end Situation

section

variable {p p' : Byte → Bool} {s : Bytes}

lemma splitOnP_congr (h : ∀ c ∈ s, p c = p' c) : s.splitOnP p = s.splitOnP p' := by
  induction s with
  | nil => rfl
  | cons b s ih =>
    obtain ⟨hb, hs⟩ := forall_mem_cons.mp h
    rw [splitOnP_cons_eq_if_modifyHead, splitOnP_cons_eq_if_modifyHead, hb, ih hs]

end

lemma stringset_same_iff (v : Bytes) :
    (∀ s s' : Situation v, s.stringset = s'.stringset ∧ s.stringset2 = s'.stringset2 ∧
      s.stringset = s'.stringset2) ↔ 59#8 ∉ v := by
  constructor
  · intro h hmem
    have hsame : (splitString (ascii ",|") v).toFinset = (splitString (ascii ",|;") v).toFinset :=
      (h (.defaulted v) (.loaded v)).2.2
    obtain ⟨part, hpart, hsemi⟩ := (exists_part_iff (p := fun c => c ∈ ascii ",|")).mpr
      ⟨hmem, by decide⟩
    have hin : part ∈ (splitString (ascii ",|;") v).toFinset := by
      rw [← hsame, mem_toFinset, mem_splitString]
      exact ⟨hpart, ne_nil_of_mem hsemi⟩
    rw [mem_toFinset, mem_splitString] at hin
    have hnot := (exists_part_iff.mp ⟨part, hin.1, hsemi⟩).2
    exact absurd hnot (by decide)
  · intro hmem
    have hsame : splitString (ascii ",|") v = splitString (ascii ",|;") v := by
      rw [splitString_eq, splitString_eq]
      congr 1
      apply splitOnP_congr
      intro c hc
      have hne : c ≠ 59#8 := fun h => hmem (h ▸ hc)
      have hseps : ascii ",|;" = ascii ",|" ++ [59#8] := rfl
      rw [hseps]
      simp [hne]
    have hplain (s : Situation v) : s.stringset = (splitString (ascii ",|") v).toFinset := by
      rcases s.stringset_eq with h | h
      · exact h
      · rw [h, hsame]
    have hsecond (s : Situation v) : s.stringset2 = (splitString (ascii ",|") v).toFinset := by
      rcases s.stringset2_eq with h | h
      · exact h
      · rw [h, hsame]
    intro s s'
    rw [hplain, hplain, hsecond, hsecond]
    exact ⟨rfl, rfl, rfl⟩

/-! ### Sets of addresses -/

section

variable {α : Type} [DecidableEq α] (init : Bytes → Except Exn α)

lemma addresses_returns_iff (items : List Bytes) (ret : Finset α) :
    (addresses init items ret).toOption.isSome ↔
      ∀ x ∈ items, strupper x = ascii "NONE" ∨ (init x).toOption.isSome := by
  induction items generalizing ret with
  | nil => simp [addresses, Except.toOption]
  | cons v vz ih =>
    rw [addresses, forall_mem_cons]
    by_cases hnone : strupper v = ascii "NONE"
    · rw [if_pos hnone, ih]
      simp [hnone]
    · rw [if_neg hnone]
      cases hinit : init v with
      | error e => simp [hnone, bind, Except.bind, Except.toOption]
      | ok a =>
        show (addresses init vz (insert a ret)).toOption.isSome ↔ _
        rw [ih]
        simp [Except.toOption]

end

def NoEmptyItem (v : Bytes) : Prop := [] ∉ resplit (ascii ";, ") v

def refusing {α : Type} (a : α) (x y : Bytes) : Except Exn α :=
  if y = [] ∨ y = x then .error (.commonError "invalid case ") else .ok a

lemma refusing_isSome {α : Type} (a : α) (x y : Bytes) :
    (refusing a x y).toOption.isSome ↔ y ≠ [] ∧ y ≠ x := by
  rw [refusing]
  split_ifs with h
  · simp only [Except.toOption, Option.isSome_none, Bool.false_eq_true, false_iff]
    tauto
  · simp only [Except.toOption, Option.isSome_some, true_iff]
    tauto

lemma tcpaddr_same_iff {α : Type} [DecidableEq α] [Inhabited α] (v : Bytes) :
    (∀ init : Bytes → Except Exn α, (init []).toOption = none → ∀ s s' : Situation v,
      s.tcpaddr init = s'.tcpaddr init ∧ s.tcpaddr2 init = s'.tcpaddr2 init ∧
        s.tcpaddr init = s'.tcpaddr2 init) ↔ 0#8 ∉ v ∧ NoEmptyItem v := by
  constructor
  · intro h
    -- an item that one of the getters does not see is no address
    have hseen : ∀ x ∈ resplit (ascii ";, ") v, strupper x ≠ ascii "NONE" →
        x ∈ splitString (ascii ";, ") (cStr v) := by
      intro x hx hnone
      by_contra hunseen
      have hsame := (h (refusing default x) (by simp [refusing, Except.toOption]) (.loaded v)
        (.loaded v)).2.2
      rw [Situation.tcpaddr_eq, Situation.tcpaddr2_eq] at hsame
      have hreturns := addresses_returns_iff (refusing (default : α) x)
        (splitString (ascii ";, ") (cStr v)) ∅
      rw [← hsame, addresses_returns_iff] at hreturns
      simp only [refusing_isSome] at hreturns
      have hall := hreturns.mpr ?_ x hx
      · tauto
      · intro y hy
        right
        refine ⟨?_, fun hyx => hunseen (hyx ▸ hy)⟩
        rw [mem_splitString] at hy
        exact hy.2
    constructor
    · -- the item with the zero is not seen by the second getter
      intro hzero
      obtain ⟨part, hpart, hin⟩ := (exists_part_iff (p := fun c => c ∈ ascii ";, ")).mpr
        ⟨hzero, by decide⟩
      have htoken : part ∈ resplit (ascii ";, ") v := by
        have hmem := mem_splitString.mpr ⟨hpart, ne_nil_of_mem hin⟩
        rw [splitString_eq, ← filter_resplit] at hmem
        exact mem_of_mem_filter hmem
      have hnone : strupper part ≠ ascii "NONE" := by
        intro h
        have hupper : 0#8 ∈ strupper part := mem_map.mpr ⟨0#8, hin, by decide⟩
        rw [h] at hupper
        exact absurd hupper (by decide)
      have hseen' := hseen part htoken hnone
      rw [mem_splitString] at hseen'
      have hcut := (exists_part_iff.mp ⟨part, hseen'.1, hin⟩).1
      exact Address.mem_cStr hcut rfl
    · intro hempty
      have hmem := hseen [] hempty (by decide)
      rw [mem_splitString] at hmem
      exact hmem.2 rfl
  · rintro ⟨hzero, hempty⟩ init - s s'
    have hitems : resplit (ascii ";, ") v = splitString (ascii ";, ") (cStr v) := by
      rw [cStr_eq_self fun c hc h => hzero (h ▸ hc), splitString_eq, ← filter_resplit,
        filter_eq_self.mpr]
      intro x hx
      exact decide_eq_true fun h => hempty (h ▸ hx)
    rw [s.tcpaddr_eq, s'.tcpaddr_eq, s.tcpaddr2_eq, s'.tcpaddr2_eq, hitems]
    exact ⟨rfl, rfl, rfl⟩

/-- **When a value is the same from every place.** -/
theorem config_same_iff {α : Type} [DecidableEq α] [Inhabited α] (v : Bytes) :
    ((∀ s s' : Situation v, s.stringset = s'.stringset ∧ s.stringset2 = s'.stringset2 ∧
      s.stringset = s'.stringset2) ↔ 59#8 ∉ v) ∧
    ((∀ init : Bytes → Except Exn α, (init []).toOption = none → ∀ s s' : Situation v,
      s.tcpaddr init = s'.tcpaddr init ∧ s.tcpaddr2 init = s'.tcpaddr2 init ∧
        s.tcpaddr init = s'.tcpaddr2 init) ↔ 0#8 ∉ v ∧ NoEmptyItem v) :=
  ⟨stringset_same_iff v, tcpaddr_same_iff v⟩

theorem config_differs : (Situation.defaulted (ascii "a;b")).stringset = {ascii "a;b"} ∧
      (Situation.loaded (ascii "a;b")).stringset = {ascii "a", ascii "b"} ∧
      (Situation.defaulted (ascii "a;b")).stringset2 = {ascii "a;b"} ∧
      (Situation.loaded (ascii "a:1,,b:2")).tcpaddr (refusing 0 []) = none ∧
      (Situation.loaded (ascii "a:1,,b:2")).tcpaddr2 (refusing 0 []) = some {0} := by
  decide +kernel

end Megatron
