import Megatron.Library.Runs
import Mathlib.Algebra.Order.Group.Multiset

/-!
The pool of database connections (`DBH_source_mysql` of `modules/mysql/mysqlService.cpp`), with any
number of callers (`pool_effect`, `pool_bounded`).
-/

namespace Megatron.Mysql

open Library List

/-- The configured `mysql_max_connections` is not used. -/
def maxConnections : ℕ := 10

def inactiveConnectionDropTimeoutSec : ℕ := 60

/-- Why `get` throws. -/
inductive GetFailure where
  | exceeded (opened : ℕ)
  /-- `makeConnection` has thrown. -/
  | connectFailed
  deriving DecidableEq, Repr

structure Source where
  /-- `time(NULL)`. -/
  now : ℕ
  /-- `container_MX`. -/
  idle : List ℕ
  /-- The handles that callers hold. -/
  held : List (ℕ × ℕ)
  connecting : List ℕ
  /-- `bIsLost` of a connection. -/
  lost : ℕ → Bool
  /-- `m_lastQueryTime` of a connection. -/
  lastQuery : ℕ → ℕ
  /-- The number of connections made so far. -/
  created : ℕ
  failures : List GetFailure

namespace Source

def initial : Source := ⟨0, [], [], [], fun _ => false, fun _ => 0, 0, []⟩

def expired (s : Source) (h : ℕ) : Bool :=
  decide (s.lastQuery h + inactiveConnectionDropTimeoutSec < s.now)

/-- The loop of `get`. Expired connections are closed. -/
def takeFresh (s : Source) : List ℕ → Option ℕ × List ℕ
  | [] => (none, [])
  | h :: rest => if s.expired h then takeFresh s rest else (some h, rest)

/-- `get`, up to the release of the lock, and the decision. -/
def get (s : Source) (c : ℕ) : Source :=
  match s.takeFresh s.idle with
  | (some h, rest) => { s with idle := rest, held := (c, h) :: s.held }
  | (none, rest) =>
    if s.idle.length < maxConnections then
      { s with idle := rest, connecting := c :: s.connecting }
    else { s with idle := rest, failures := s.failures ++ [.exceeded s.held.length] }

/-- The rest of `get`: `makeConnection` works or throws. -/
def connect (s : Source) (c : ℕ) (works : Bool) : Option Source :=
  if c ∈ s.connecting then
    let s := { s with connecting := s.connecting.erase c }
    if works then some { s with
      held := (c, s.created) :: s.held
      lastQuery := Function.update s.lastQuery s.created s.now
      created := s.created + 1 }
    else some { s with failures := s.failures ++ [GetFailure.connectFailed] }
  else none

/-- `unget`: a connection that is not valid is closed. -/
def unget (s : Source) (c h : ℕ) : Option Source :=
  if (c, h) ∈ s.held then
    some { s with
      held := s.held.erase (c, h)
      idle := if s.lost h then s.idle else s.idle ++ [h] }
  else none

/-- The handle is let go without `unget`. -/
def release (s : Source) (c h : ℕ) : Option Source :=
  if (c, h) ∈ s.held then some { s with held := s.held.erase (c, h) } else none

def exec (s : Source) (c h : ℕ) (fails : Bool) : Option Source :=
  if (c, h) ∈ s.held then
    some { s with
      lastQuery := Function.update s.lastQuery h s.now
      lost := Function.update s.lost h (s.lost h || fails) }
  else none

end Source

inductive PoolAction where
  | tick (seconds : ℕ)
  | get (c : ℕ)
  | connect (c : ℕ) (works : Bool)
  | unget (c h : ℕ)
  | release (c h : ℕ)
  | exec (c h : ℕ) (fails : Bool)
  deriving DecidableEq, Repr

def Source.step (s : Source) : PoolAction → Option Source
  | .tick seconds => some { s with now := s.now + seconds }
  | .get c => some (s.get c)
  | .connect c works => s.connect c works
  | .unget c h => s.unget c h
  | .release c h => s.release c h
  | .exec c h fails => s.exec c h fails

variable {s s' : Source} {a : PoolAction}

lemma takeFresh_spec (s : Source) (idle : List ℕ) :
    ((s.takeFresh idle = (none, []) ∧ ∀ h ∈ idle, s.expired h = true)) ∨
      ∃ h rest, s.takeFresh idle = (some h, rest) ∧ (h :: rest) <:+ idle ∧ s.expired h = false := by
  induction idle with
  | nil => exact .inl ⟨rfl, nofun⟩
  | cons x idle ih =>
    rw [Source.takeFresh]
    split_ifs with hx
    · rcases ih with ⟨hnone, hall⟩ | ⟨h, rest, hsome, hsuffix, hfresh⟩
      · exact .inl ⟨hnone, forall_mem_cons.mpr ⟨hx, hall⟩⟩
      · exact .inr ⟨h, rest, hsome, hsuffix.trans (suffix_cons x idle), hfresh⟩
    · exact .inr ⟨x, idle, rfl, suffix_rfl, by simpa using hx⟩

inductive PoolEffect (s : Source) : PoolAction → Source → Prop
  | tick : PoolEffect s (.tick seconds) { s with now := s.now + seconds }
  | reuse : (h :: rest) <:+ s.idle →
      PoolEffect s (.get c) { s with idle := rest, held := (c, h) :: s.held }
  | begin : (∀ h ∈ s.idle, s.expired h = true) → s.idle.length < maxConnections →
      PoolEffect s (.get c) { s with idle := [], connecting := c :: s.connecting }
  | refuse : (∀ h ∈ s.idle, s.expired h = true) → maxConnections ≤ s.idle.length →
      PoolEffect s (.get c)
        { s with idle := [], failures := s.failures ++ [.exceeded s.held.length] }
  | connect : c ∈ s.connecting → PoolEffect s (.connect c true) { s with
      connecting := s.connecting.erase c
      held := (c, s.created) :: s.held
      lastQuery := Function.update s.lastQuery s.created s.now
      created := s.created + 1 }
  | connectFailed : c ∈ s.connecting → PoolEffect s (.connect c false) { s with
      connecting := s.connecting.erase c
      failures := s.failures ++ [GetFailure.connectFailed] }
  | keep : (c, h) ∈ s.held → PoolEffect s (.unget c h)
      { s with held := s.held.erase (c, h), idle := s.idle ++ [h] }
  | discard : (c, h) ∈ s.held → PoolEffect s (.unget c h) { s with held := s.held.erase (c, h) }
  | release : (c, h) ∈ s.held → PoolEffect s (.release c h) { s with held := s.held.erase (c, h) }
  | exec : PoolEffect s (.exec c h fails) { s with lastQuery := lastQuery, lost := lost }

lemma get_effect (s : Source) (c : ℕ) : PoolEffect s (.get c) (s.get c) := by
  rw [Source.get]
  rcases takeFresh_spec s s.idle with ⟨hnone, hall⟩ | ⟨h, rest, hsome, hsuffix, -⟩
  · rw [hnone]
    show PoolEffect s (.get c) (if _ then _ else _)
    split_ifs with hroom
    · exact .begin hall hroom
    · exact .refuse hall (not_lt.mp hroom)
  · rw [hsome]
    exact .reuse hsuffix

theorem pool_effect (h : s.step a = some s') : PoolEffect s a s' := by
  cases a with
  | tick seconds =>
    cases h
    exact .tick
  | get c =>
    cases h
    exact get_effect s c
  | connect c works =>
    simp only [Source.step, Source.connect] at h
    split_ifs at h with hc hworks <;> cases h
    · subst hworks
      exact .connect hc
    · obtain rfl : works = false := by simpa using hworks
      exact .connectFailed hc
  | unget c x =>
    simp only [Source.step, Source.unget] at h
    split_ifs at h with hheld hlost <;> cases h
    · exact .discard hheld
    · exact .keep hheld
  | release c x =>
    simp only [Source.step, Source.release] at h
    split_ifs at h with hheld
    cases h
    exact .release hheld
  | exec c x fails =>
    simp only [Source.step, Source.exec] at h
    split_ifs at h
    cases h
    exact .exec

/-! ### The number of connections -/

def Source.opened (s : Source) : ℕ := s.idle.length + s.held.length

/-- `get` finds a connection, or room for a new one. -/
def Roomy (s : Source) : PoolAction → Prop
  | .get _ => (∀ h ∈ s.idle, s.expired h = true) →
      s.held.length + s.connecting.length < maxConnections ∧ s.idle.length < maxConnections
  | _ => True

def Bounded (s : Source) : Prop := s.opened + s.connecting.length ≤ maxConnections

/-- **Every step with room keeps the bound.** -/
theorem Bounded.step (hs : Bounded s) (hok : Roomy s a) (h : s.step a = some s') : Bounded s' := by
  rw [Bounded, Source.opened] at hs ⊢
  cases pool_effect h with
  | tick | exec => exact hs
  | reuse hsuffix =>
    have hlen := hsuffix.length_le
    simp only [length_cons] at hlen ⊢
    omega
  | begin hall hroom =>
    have hroom := (hok hall).1
    simp only [length_nil, length_cons]
    omega
  | refuse hall hfull => exact absurd (hok hall).2 (not_lt.mpr hfull)
  | connect hc =>
    have hlen := length_erase_add_one hc
    simp only [length_cons]
    omega
  | connectFailed hc =>
    have hlen := length_erase_add_one hc
    show s.idle.length + s.held.length + (s.connecting.erase _).length ≤ _
    omega
  | keep hheld =>
    have hlen := length_erase_add_one hheld
    simp only [length_append, length_singleton]
    omega
  | discard hheld | release hheld =>
    have hlen := length_erase_add_one hheld
    show s.idle.length + (s.held.erase _).length + s.connecting.length ≤ _
    omega

def GetFailure.Justified : GetFailure → Prop
  | .exceeded opened => maxConnections ≤ opened
  | .connectFailed => True

/-- Every failure of `get` so far was justified. -/
def Obliging (s : Source) : Prop := ∀ f ∈ s.failures, f.Justified

lemma Obliging.step (hs : Obliging s) (hok : Roomy s a) (h : s.step a = some s') : Obliging s' := by
  cases pool_effect h with
  | refuse hall hfull => exact absurd (hok hall).2 (not_lt.mpr hfull)
  | connectFailed hc =>
    intro f hf
    rcases mem_append.mp hf with hf | hf
    · exact hs f hf
    · rw [mem_singleton.mp hf]
      trivial
  | _ => exact hs

/-! ### The handles -/

def Source.handles (s : Source) : Multiset ℕ := s.idle + (s.held.map Prod.snd : Multiset ℕ)

structure Distinct (s : Source) : Prop where
  nodup : s.handles.Nodup
  made : ∀ h ∈ s.handles, h < s.created

lemma Distinct.of_le (hs : Distinct s) (hle : s'.handles ≤ s.handles)
    (hcreated : s'.created = s.created) : Distinct s' where
  nodup := Multiset.nodup_of_le hle hs.nodup
  made h hh := hcreated ▸ hs.made h (Multiset.mem_of_le hle hh)

lemma handles_erase {c h : ℕ} (hheld : (c, h) ∈ s.held) :
    (s.held.map Prod.snd : Multiset ℕ) = h ::ₘ ((s.held.erase (c, h)).map Prod.snd : List ℕ) :=
  Multiset.coe_eq_coe.mpr ((perm_cons_erase hheld).map Prod.snd)

lemma Distinct.drop (hs : Distinct s) {c h : ℕ} (hheld : (c, h) ∈ s.held) :
    Distinct { s with held := s.held.erase (c, h) } := by
  refine hs.of_le ?_ rfl
  rw [Source.handles, Source.handles, handles_erase hheld]
  exact add_le_add_right (Multiset.le_cons_self _ _) _

/-- **Every step keeps the handles apart.** -/
theorem Distinct.step (hs : Distinct s) (h : s.step a = some s') : Distinct s' := by
  cases pool_effect h with
  | tick | connectFailed | exec => exact ⟨hs.nodup, hs.made⟩
  | @reuse x rest c hsuffix =>
    refine hs.of_le ?_ rfl
    have hle : ((x :: rest : List ℕ) : Multiset ℕ) ≤ s.idle :=
      Multiset.coe_le.mpr hsuffix.sublist.subperm
    calc (rest : Multiset ℕ) + (((c, x) :: s.held).map Prod.snd : List ℕ)
        = ((x :: rest : List ℕ) : Multiset ℕ) + (s.held.map Prod.snd : List ℕ) := by
          simp only [map_cons, ← Multiset.cons_coe, Multiset.add_cons, Multiset.cons_add]
      _ ≤ s.idle + (s.held.map Prod.snd : List ℕ) := add_le_add_left hle _
  | begin | refuse =>
    refine hs.of_le ?_ rfl
    exact add_le_add_left (Multiset.zero_le _) _
  | @connect c hc =>
    have hhandles : s.created ::ₘ s.handles = (s.idle : Multiset ℕ) +
        (((c, s.created) :: s.held).map Prod.snd : List ℕ) := by
      rw [map_cons, ← Multiset.cons_coe, Multiset.add_cons]
      rfl
    refine ⟨?_, ?_⟩
    · rw [Source.handles, ← hhandles]
      exact Multiset.nodup_cons.mpr ⟨fun hmem => (hs.made _ hmem).false, hs.nodup⟩
    · intro x hx
      rw [Source.handles, ← hhandles, Multiset.mem_cons] at hx
      rcases hx with rfl | hx
      · exact Nat.lt_succ_self _
      · exact (hs.made x hx).trans (Nat.lt_succ_self _)
  | @keep c x hheld =>
    refine hs.of_le (le_of_eq ?_) rfl
    rw [Source.handles, Source.handles, handles_erase hheld, ← Multiset.coe_add,
      Multiset.coe_singleton, add_assoc, Multiset.singleton_add]
  | discard hheld | release hheld => exact hs.drop hheld

lemma Distinct.holder_eq (hs : Distinct s) {c c' h : ℕ} (hc : (c, h) ∈ s.held)
    (hc' : (c', h) ∈ s.held) : c = c' := by
  have hnodup : (s.held.map Prod.snd).Nodup :=
    Multiset.coe_nodup.mp (Multiset.nodup_of_le (Multiset.le_add_left _ _) hs.nodup)
  have heq := inj_on_of_nodup_map hnodup hc hc' rfl
  exact congrArg Prod.fst heq

/-- **The connection pool** is bounded where `get` finds a fresh connection or room. -/
theorem pool_bounded {as : List PoolAction} (hrun : run Source.step Source.initial as = some s)
    (hok : Meets Source.step Roomy Source.initial as) : s.opened ≤ maxConnections ∧
    (∀ f ∈ s.failures, f.Justified) ∧ ∀ c c' h, (c, h) ∈ s.held → (c', h) ∈ s.held → c = c' := by
  have hbounded : Bounded s :=
    run_invariant Bounded.step (s := Source.initial) (Nat.zero_le _) hok hrun
  have hobliging : Obliging s := run_invariant Obliging.step (s := Source.initial) nofun hok hrun
  have hdistinct : Distinct s :=
    run_invariant' Distinct.step (s := Source.initial) ⟨Multiset.nodup_zero, nofun⟩ hrun
  exact ⟨(Nat.le_add_right _ _).trans hbounded, hobliging, fun c c' h => hdistinct.holder_eq⟩

def poolTurns : List PoolAction :=
  [.get 0, .connect 0 true, .exec 0 0 false, .unget 0 0, .tick 5, .get 1, .get 2, .connect 2 true]

theorem pool_bounded_poolTurns :
    ∃ s, run Source.step Source.initial poolTurns = some s ∧ s.held = [(2, 1), (1, 0)] ∧
      s.opened ≤ maxConnections ∧ ∀ c c' h, (c, h) ∈ s.held → (c', h) ∈ s.held → c = c' := by
  have hok : Meets Source.step Roomy Source.initial poolTurns := by
    refine ⟨?_, trivial, trivial, trivial, trivial, ?_, ?_, trivial, trivial⟩
    · exact fun _ => by decide
    · exact fun _ => by decide
    · exact fun _ => by decide
  obtain ⟨hopened, -, hholder⟩ := @pool_bounded _ poolTurns rfl hok
  exact ⟨_, rfl, rfl, hopened, hholder⟩

/-- **The bound is overrun** by eleven callers. -/
theorem pool_overrun : (∃ s, run Source.step Source.initial
        ((List.range 11).flatMap fun c => [PoolAction.get c, PoolAction.connect c true]) = some s ∧
      s.opened = maxConnections + 1) ∧ ∃ s, run Source.step Source.initial
        (((List.range 10).flatMap fun c => [PoolAction.get c, PoolAction.connect c true]) ++
          (List.range 10).map (fun c => PoolAction.unget c c) ++
          [PoolAction.tick 61, PoolAction.get 0]) = some s ∧
      s.opened = 0 ∧ s.failures = [.exceeded 0] := ⟨⟨_, rfl, rfl⟩, ⟨_, rfl, rfl, rfl⟩⟩

end Megatron.Mysql
