import Mathlib.Tactic

/-!
Framed streams: a parser that takes one frame after the other off the front of a buffer. The pieces
in which the stream arrives do not matter (`feed_spec`).
-/

namespace Library

open List

variable {π β : Type}

inductive Next (π β : Type) where
  /-- No complete frame yet. -/
  | more
  /-- A payload and the symbols after its frame. -/
  | item (p : π) (rest : List β)
  /-- A frame that is not accepted, and the symbols after it. -/
  | bad (rest : List β)

/-- A parser for one frame, which takes at least one symbol. -/
structure Framing (π β : Type) where
  next : List β → Next π β
  shorter : ∀ {b p r}, next b = .item p r → r.length < b.length

/-- The payloads so far, what is left, and whether a frame was bad. -/
structure Drained (π β : Type) where
  items : List π
  buffer : List β
  bad : Bool
  deriving DecidableEq, Repr

namespace Framing

variable (F : Framing π β)

/-- At most `n` rounds of the parser. -/
def drainN : ℕ → List β → Drained π β
  | 0, b => ⟨[], b, false⟩
  | n + 1, b =>
    match F.next b with
    | .more => ⟨[], b, false⟩
    | .item p r =>
      let d := drainN n r
      ⟨p :: d.items, d.buffer, d.bad⟩
    | .bad r => ⟨[], r, true⟩

def drain (b : List β) : Drained π β := F.drainN (b.length + 1) b

lemma drainN_eq {n m : ℕ} {b : List β} (hn : b.length < n) (hm : b.length < m) :
    F.drainN n b = F.drainN m b := by
  induction n generalizing m b with
  | zero => omega
  | succ n ih =>
    cases m with
    | zero => omega
    | succ m =>
      rw [drainN, drainN]
      cases h : F.next b with
      | more | bad r => rfl
      | item p r =>
        have hr := F.shorter h
        simp only
        rw [ih (m := m) (b := r) (by omega) (by omega)]

lemma drain_of_more {b : List β} (h : F.next b = .more) : F.drain b = ⟨[], b, false⟩ := by
  rw [drain, drainN, h]

lemma drain_of_item {b r : List β} {p : π} (h : F.next b = .item p r) :
    F.drain b = ⟨p :: (F.drain r).items, (F.drain r).buffer, (F.drain r).bad⟩ := by
  have hr := F.shorter h
  have hrun : F.drainN b.length r = F.drain r := F.drainN_eq hr (Nat.lt_succ_self _)
  rw [drain, drainN, h]
  simp only [hrun]

lemma drain_of_bad {b r : List β} (h : F.next b = .bad r) : F.drain b = ⟨[], r, true⟩ := by
  rw [drain, drainN, h]

def feed (s : Drained π β) (d : List β) : Drained π β :=
  let r := F.drain (s.buffer ++ d)
  ⟨s.items ++ r.items, r.buffer, s.bad || r.bad⟩

def start : Drained π β := ⟨[], [], false⟩

end Framing

/-! ### Complete frames -/

section

variable (frame : π → List β)

/-- `F` reads the frames of valid payloads. -/
structure Frames (F : Framing π β) (valid : π → Prop) : Prop where
  next_nil : F.next [] = .more
  next_frame : ∀ {p rest}, valid p → F.next (frame p ++ rest) = .item p rest
  next_cut : ∀ {p u v}, valid p → frame p = u ++ v → v ≠ [] → F.next u = .more

/-- The payloads whose frames lie within the first `n` symbols. -/
def completed : List π → ℕ → List π
  | [], _ => []
  | p :: ps, n =>
    if (frame p).length ≤ n then p :: completed ps (n - (frame p).length) else []

/-- `r` is a proper part of the next frame. -/
def Waiting (ps : List π) (r : List β) : Prop :=
  match ps with
  | [] => r = []
  | p :: _ => ∃ v, frame p = r ++ v ∧ v ≠ []

variable {frame}

lemma exists_waiting (ps : List π) (u : List β) (h : u <+: ps.flatMap frame) :
    ∃ qs r, ps = completed frame ps u.length ++ qs ∧
      u = (completed frame ps u.length).flatMap frame ++ r ∧ Waiting frame qs r := by
  induction ps generalizing u with
  | nil => exact ⟨[], [], rfl, prefix_nil.mp h, rfl⟩
  | cons p ps ih =>
    rw [completed]
    split_ifs with hlen
    · have hp : frame p <+: u :=
        prefix_of_prefix_length_le (prefix_append _ (ps.flatMap frame)) h hlen
      obtain ⟨u', rfl⟩ := hp
      have hu' : u' <+: ps.flatMap frame := by
        rw [flatMap_cons] at h
        exact (prefix_append_right_inj _).mp h
      obtain ⟨qs, r, hps, hu, hw⟩ := ih u' hu'
      have hsub : (frame p ++ u').length - (frame p).length = u'.length := by
        rw [length_append]
        omega
      refine ⟨qs, r, ?_, ?_, hw⟩
      · rw [hsub, cons_append, ← hps]
      · rw [hsub, flatMap_cons, append_assoc, ← hu]
    · have hu : u <+: frame p :=
        prefix_of_prefix_length_le h (prefix_append _ (ps.flatMap frame))
          (by omega)
      obtain ⟨v, hv⟩ := hu
      refine ⟨p :: ps, u, rfl, rfl, v, hv.symm, ?_⟩
      rintro rfl
      rw [append_nil] at hv
      exact hlen (by rw [hv])

variable {ps qs : List π} {r : List β}

lemma completed_waiting (h : Waiting frame qs r) : completed frame qs r.length = [] := by
  cases qs with
  | nil => rfl
  | cons p qs =>
    obtain ⟨v, hv, hne⟩ := h
    have hpos := length_pos_of_ne_nil hne
    rw [completed, if_neg]
    rw [hv, length_append]
    omega

lemma completed_of_waiting (cs : List π) (h : Waiting frame qs r) :
    completed frame (cs ++ qs) (cs.flatMap frame ++ r).length = cs := by
  induction cs with
  | nil => exact completed_waiting h
  | cons c cs ih =>
    have hlen : (frame c).length ≤ ((c :: cs).flatMap frame ++ r).length := by
      rw [flatMap_cons, append_assoc, length_append]
      omega
    have hsub : ((c :: cs).flatMap frame ++ r).length - (frame c).length
        = (cs.flatMap frame ++ r).length := by
      rw [flatMap_cons, append_assoc, length_append]
      omega
    rw [cons_append, completed, if_pos hlen, hsub, ih]

lemma completed_flatMap (ps : List π) : completed frame ps (ps.flatMap frame).length = ps := by
  have h := completed_of_waiting ps (show Waiting frame [] [] from rfl)
  rwa [append_nil, append_nil] at h

/-! ### Feeding the parser -/

variable {F : Framing π β} {valid : π → Prop}

lemma next_of_waiting (hF : Frames frame F valid)
    (hqs : ∀ p ∈ qs, valid p) (h : Waiting frame qs r) : F.next r = .more := by
  cases qs with
  | nil =>
    rw [show r = [] from h]
    exact hF.next_nil
  | cons p qs =>
    obtain ⟨v, hv, hne⟩ := h
    exact hF.next_cut (hqs p mem_cons_self) hv hne

lemma waiting_nil (hF : Frames frame F valid) (hps : ∀ p ∈ ps, valid p) : Waiting frame ps [] := by
  cases ps with
  | nil => rfl
  | cons p ps =>
    refine ⟨frame p, rfl, fun hnil => ?_⟩
    have h : F.next (frame p ++ []) = .item p [] := hF.next_frame (hps p mem_cons_self)
    rw [hnil, append_nil, hF.next_nil] at h
    cases h

lemma drain_flatMap (hF : Frames frame F valid) {cs : List π}
    (hcs : ∀ p ∈ cs, valid p) (hqs : ∀ p ∈ qs, valid p) (h : Waiting frame qs r) :
    F.drain (cs.flatMap frame ++ r) = ⟨cs, r, false⟩ := by
  induction cs with
  | nil => exact F.drain_of_more (next_of_waiting hF hqs h)
  | cons c cs ih =>
    obtain ⟨hc, hcs'⟩ := forall_mem_cons.mp hcs
    rw [flatMap_cons, append_assoc, F.drain_of_item (hF.next_frame hc), ih hcs']

structure Received (frame : π → List β) (ps : List π) (u : List β) (s : Drained π β) :
    Prop where
  items : s.items = completed frame ps u.length
  split : u = s.items.flatMap frame ++ s.buffer
  waiting : ∃ qs, ps = s.items ++ qs ∧ Waiting frame qs s.buffer
  bad : s.bad = false

lemma Received.feed (hF : Frames frame F valid) (hps : ∀ p ∈ ps, valid p)
    {u d : List β} {s : Drained π β} (hs : Received frame ps u s)
    (h : u ++ d <+: ps.flatMap frame) : Received frame ps (u ++ d) (F.feed s d) := by
  obtain ⟨qs, hqs, -⟩ := hs.waiting
  have hpre : s.buffer ++ d <+: qs.flatMap frame := by
    rw [hs.split, hqs, flatMap_append, append_assoc] at h
    exact (prefix_append_right_inj _).mp h
  obtain ⟨qs', r, hcs, hr, hw⟩ := exists_waiting qs _ hpre
  have hvalid : ∀ p ∈ qs, valid p := fun p hp => hps p (hqs ▸ mem_append_right _ hp)
  have hdrain : F.drain (s.buffer ++ d)
      = ⟨completed frame qs (s.buffer ++ d).length, r, false⟩ := by
    conv_lhs => rw [hr]
    refine drain_flatMap hF (fun p hp => hvalid p ?_) (fun p hp => hvalid p ?_) hw
    · rw [hcs]
      exact mem_append_left _ hp
    · rw [hcs]
      exact mem_append_right _ hp
  have hfeed : F.feed s d
      = ⟨s.items ++ completed frame qs (s.buffer ++ d).length, r, false⟩ := by
    rw [Framing.feed, hdrain, hs.bad]
    rfl
  have hsplit : u ++ d
      = (s.items ++ completed frame qs (s.buffer ++ d).length).flatMap frame ++ r := by
    calc u ++ d = s.items.flatMap frame ++ (s.buffer ++ d) := by
          conv_lhs => rw [hs.split, append_assoc]
      _ = _ := by
          conv_lhs => rw [hr]
          rw [flatMap_append, append_assoc]
  have hps' : ps = (s.items ++ completed frame qs (s.buffer ++ d).length) ++ qs' := by
    rw [append_assoc, ← hcs, ← hqs]
  rw [hfeed]
  refine ⟨?_, hsplit, ⟨qs', hps', hw⟩, rfl⟩
  conv_rhs => rw [hsplit, hps', completed_of_waiting _ hw]

/-- **The pieces do not matter.** -/
lemma feed_spec (hF : Frames frame F valid) (hps : ∀ p ∈ ps, valid p)
    (ds : List (List β)) (h : ds.flatten <+: ps.flatMap frame) :
    Received frame ps ds.flatten (ds.foldl F.feed Framing.start) := by
  induction ds using List.reverseRecOn with
  | nil =>
    have hw := waiting_nil hF hps
    exact ⟨(completed_waiting hw).symm, rfl, ⟨ps, rfl, hw⟩, rfl⟩
  | append_singleton ds d ih =>
    rw [flatten_append, flatten_singleton] at h ⊢
    rw [foldl_append]
    exact (ih ((prefix_append _ _).trans h)).feed hF hps h

end

end Library
