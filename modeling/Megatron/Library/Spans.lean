import Mathlib.Data.List.Basic

/-!
Parsers that report what they find while a stream comes in. A read that ends in a piece leaves a
`Cut` of it (`execute_cut`), which a consumer that `Joins` spans does not notice (`foldlM_cut`).
-/

namespace Library.Spans

open List

/-- What a parser does with the next symbols. -/
inductive Piece (α κ γ : Type*) where
  | skip (b : List α)
  | span (k : κ) (b : List α)
  | call (c : γ)
  | pause

inductive Report (α κ γ : Type*) where
  | span (k : κ) (b : List α)
  | call (c : γ)

variable {α κ γ : Type*}

def Piece.bytes : Piece α κ γ → List α
  | .skip b | .span _ b => b
  | .call _ | .pause => []

def Piece.report? : Piece α κ γ → Option (Report α κ γ)
  | .skip _ | .pause => none
  | .span k b => some (.span k b)
  | .call c => some (.call c)

def bytes (ps : List (Piece α κ γ)) : List α := ps.flatMap Piece.bytes

/-- What the pieces report. -/
def reports (ps : List (Piece α κ γ)) : List (Report α κ γ) := ps.filterMap Piece.report?

@[simp] lemma bytes_nil : bytes ([] : List (Piece α κ γ)) = [] := rfl

@[simp] lemma bytes_cons (p : Piece α κ γ) (ps) : bytes (p :: ps) = p.bytes ++ bytes ps := rfl

variable {a : List α} {p q : Piece α κ γ} {rs : List (Report α κ γ)} (cs : List γ)
variable (ps qs : List (Piece α κ γ))

@[simp] lemma bytes_append : bytes (ps ++ qs) = bytes ps ++ bytes qs := flatMap_append

@[simp] lemma bytes_flatMap {β : Type*} (f : β → List (Piece α κ γ)) (l : List β) :
    bytes (l.flatMap f) = l.flatMap fun x => bytes (f x) := by
  simp only [bytes, flatMap_assoc]

@[simp] lemma reports_nil : reports ([] : List (Piece α κ γ)) = [] := rfl

@[simp] lemma reports_skip (b : List α) (ps : List (Piece α κ γ)) :
    reports (.skip b :: ps) = reports ps := rfl

@[simp] lemma reports_span (k : κ) (b : List α) (ps : List (Piece α κ γ)) :
    reports (.span k b :: ps) = .span k b :: reports ps := rfl

@[simp] lemma reports_call (c : γ) (ps : List (Piece α κ γ)) :
    reports (.call c :: ps) = .call c :: reports ps := rfl

@[simp] lemma reports_append : reports (ps ++ qs) = reports ps ++ reports qs := filterMap_append

@[simp] lemma reports_calls : reports (cs.map .call : List (Piece α κ γ)) = cs.map .call := by
  induction cs with
  | nil => rfl
  | cons c cs ih => rw [map_cons, reports_call, ih, map_cons]

lemma call_mem_reports {c : γ} {ps : List (Piece α κ γ)} : .call c ∈ reports ps ↔ .call c ∈ ps := by
  rw [reports, mem_filterMap]
  constructor
  · rintro ⟨p, hp, hc⟩
    cases p <;> simp only [Piece.report?, Option.some.injEq, reduceCtorEq] at hc
    cases hc
    exact hp
  · intro hc
    exact ⟨.call c, hc, rfl⟩

@[simp] lemma bytes_calls : bytes (cs.map .call : List (Piece α κ γ)) = [] := by
  simp [bytes, Piece.bytes]

section

-- The kinds of span that end at a delimiter.
variable (ahead : κ → Bool)

/-- What is reported for `data`, and the pieces that are left. -/
def execute : List (Piece α κ γ) → List α → List (Report α κ γ) × List (Piece α κ γ)
  | [], _ => ([], [])
  | .skip b :: ps, data =>
    if data.length < b.length then ([], .skip (b.drop data.length) :: ps)
    else execute ps (data.drop b.length)
  | .span k b :: ps, data =>
    if data.length < b.length + (ahead k).toNat then
      (if data.isEmpty then [] else [.span k data], .span k (b.drop data.length) :: ps)
    else
      let e := execute ps (data.drop b.length)
      (.span k b :: e.1, e.2)
  | .call c :: ps, data =>
    let e := execute ps data
    (.call c :: e.1, e.2)
  | .pause :: ps, _ => ([], .pause :: ps)

/-- A span that ends at a delimiter has one behind it. -/
def Delimited : List (Piece α κ γ) → Prop
  | [] => True
  | .span k _ :: ps => (ahead k = true → bytes ps ≠ []) ∧ Delimited ps
  | .skip _ :: ps | .call _ :: ps | .pause :: ps => Delimited ps

variable {ahead}

variable {p : Piece α κ γ} {ps qs : List (Piece α κ γ)} {rs : List (Report α κ γ)}

lemma Delimited.of_cons (h : Delimited ahead (p :: ps)) : Delimited ahead ps := by
  cases p with
  | span k b => exact h.2
  | skip b | call c | pause => exact h

lemma Delimited.of_append (h : Delimited ahead (ps ++ qs)) : Delimited ahead qs := by
  induction ps with
  | nil => exact h
  | cons p ps ih => exact ih h.of_cons

lemma Delimited.append (hp : Delimited ahead ps)
    (hq : Delimited ahead qs) : Delimited ahead (ps ++ qs) := by
  induction ps with
  | nil => exact hq
  | cons p ps ih =>
    have hrest := ih hp.of_cons
    cases p with
    | span k b =>
      refine ⟨fun hk => ?_, hrest⟩
      change bytes (ps ++ qs) ≠ []
      rw [bytes_append]
      exact append_ne_nil_of_left_ne_nil (hp.1 hk) _
    | skip b | call c | pause => exact hrest

lemma delimited_append_of_ne_nil (ps : List (Piece α κ γ))
    (hq : Delimited ahead qs) (hne : bytes qs ≠ []) : Delimited ahead (ps ++ qs) := by
  induction ps with
  | nil => exact hq
  | cons p ps ih =>
    cases p with
    | span k b =>
      refine ⟨fun _ => ?_, ih⟩
      change bytes (ps ++ qs) ≠ []
      rw [bytes_append]
      exact append_ne_nil_of_right_ne_nil _ hne
    | skip b | call c | pause => exact ih

lemma execute_bytes (hpause : .pause ∉ qs) (hd : Delimited ahead qs)
    (ps : List (Piece α κ γ)) (extra : List α) : execute ahead (qs ++ ps) (bytes qs ++ extra) =
    (reports qs ++ (execute ahead ps extra).1, (execute ahead ps extra).2) := by
  induction qs with
  | nil => rfl
  | cons p qs ih =>
    have ih := ih (fun hmem => hpause (mem_cons_of_mem _ hmem)) hd.of_cons
    cases p with
    | skip b =>
      rw [cons_append, execute, if_neg (by simp [Piece.bytes]), bytes_cons, Piece.bytes,
        append_assoc, drop_left, ih]
      rfl
    | span k b =>
      have hlong : ¬ (bytes (.span k b :: qs) ++ extra).length < b.length + (ahead k).toNat := by
        cases hk : ahead k with
        | false => simp [Piece.bytes]
        | true =>
          have := length_pos_of_ne_nil (hd.1 hk)
          simp only [bytes_cons, Piece.bytes, length_append, Bool.toNat_true]
          omega
      rw [cons_append, execute, if_neg hlong, bytes_cons, Piece.bytes, append_assoc, drop_left, ih]
      rfl
    | call c =>
      rw [cons_append, execute, bytes_cons, Piece.bytes, nil_append, ih]
      rfl
    | pause => exact absurd mem_cons_self hpause

lemma execute_calls (cs : List γ) (ps : List (Piece α κ γ)) (data : List α) :
    execute ahead (cs.map .call ++ .pause :: ps) data = (cs.map .call, .pause :: ps) := by
  induction cs with
  | nil => rfl
  | cons c cs ih =>
    rw [map_cons, cons_append, execute, ih]
    rfl

/-- A piece that is read up to `a`. -/
inductive Cut : Piece α κ γ → List α → List (Report α κ γ) → Piece α κ γ → Prop
  | skip {a b c : List α} (h : c = a ++ b) : Cut (.skip c) a [] (.skip b)
  | before (k : κ) (b : List α) : Cut (.span k b) [] [] (.span k b)
  | span {a b c : List α} (k : κ) (h : c = a ++ b) : Cut (.span k c) a [.span k a] (.span k b)

private lemma eq_append_drop {a b c d : List α} (h : a ++ b = c ++ d)
    (hle : c.length ≤ a.length) : a = c ++ a.drop c.length ∧ a.drop c.length ++ b = d := by
  obtain ⟨e, rfl⟩ : c <+: a := prefix_of_prefix_length_le (prefix_append c d) ⟨b, h⟩ hle
  rw [append_assoc] at h
  rw [drop_left]
  exact ⟨rfl, append_cancel_left h⟩

lemma execute_cut (hpause : .pause ∉ qs) {data later : List α}
    (hdata : data ++ later = bytes qs) (hlater : later ≠ []) (ps : List (Piece α κ γ)) :
    ∃ before p after a rs q, qs = before ++ p :: after ∧ Cut p a rs q ∧ data = bytes before ++ a ∧
      execute ahead (qs ++ ps) data = (reports before ++ rs, q :: (after ++ ps)) := by
  induction qs generalizing data with
  | nil => exact absurd (append_eq_nil_iff.mp hdata).2 hlater
  | cons p qs ih =>
    have ih {data : List α} (h : data ++ later = bytes qs) :=
      ih (fun hmem => hpause (mem_cons_of_mem _ hmem)) h
    rw [bytes_cons] at hdata
    cases p with
    | skip b =>
      rw [cons_append, execute]
      split
      · next hshort =>
          obtain ⟨hb, -⟩ := eq_append_drop hdata.symm (Nat.le_of_lt hshort)
          exact ⟨[], .skip b, qs, data, [], .skip (b.drop data.length), rfl, .skip hb, rfl, rfl⟩
      · next hlong =>
          obtain ⟨hdata', hrest⟩ := eq_append_drop hdata (Nat.not_lt.mp hlong)
          obtain ⟨before, p, after, a, rs, q, rfl, hcut, ha, he⟩ := ih hrest
          refine ⟨.skip b :: before, p, after, a, rs, q, rfl, hcut, ?_, he⟩
          rw [bytes_cons, append_assoc, ← ha]
          exact hdata'
    | span k b =>
      rw [cons_append, execute]
      split
      · next hshort =>
          have hle : data.length ≤ b.length := by
            cases hk : ahead k <;> rw [hk] at hshort <;>
              simp only [Bool.toNat_true, Bool.toNat_false] at hshort <;> omega
          obtain ⟨hb, -⟩ := eq_append_drop hdata.symm hle
          cases data with
          | nil => exact ⟨[], .span k b, qs, [], [], .span k b, rfl, .before k b, rfl, rfl⟩
          | cons x data =>
            exact ⟨[], .span k b, qs, x :: data, [.span k (x :: data)],
              .span k (b.drop (x :: data).length), rfl, .span k hb, rfl, rfl⟩
      · next hlong =>
          have hle : b.length ≤ data.length := by omega
          obtain ⟨hdata', hrest⟩ := eq_append_drop hdata hle
          obtain ⟨before, p, after, a, rs, q, rfl, hcut, ha, he⟩ := ih hrest
          refine ⟨.span k b :: before, p, after, a, rs, q, rfl, hcut, ?_, ?_⟩
          · rw [bytes_cons, append_assoc, ← ha]
            exact hdata'
          · rw [Piece.bytes] at he
            rw [he]
            rfl
    | call c =>
      obtain ⟨before, p, after, a, rs, q, rfl, hcut, ha, he⟩ := ih hdata
      refine ⟨.call c :: before, p, after, a, rs, q, rfl, hcut, ha, ?_⟩
      rw [cons_append, execute, he]
      rfl
    | pause => exact absurd mem_cons_self hpause

lemma Cut.delimited {q : Piece α κ γ} {a : List α}
    (h : Cut p a rs q) (hd : Delimited ahead (p :: ps)) : Delimited ahead (q :: ps) := by
  cases h with
  | skip h | before k b | span k h => exact hd

end

lemma Cut.bytes_eq (h : Cut p a rs q) : p.bytes = a ++ q.bytes := by
  cases h with
  | skip h | span k h => exact h
  | before k b => rfl

lemma Cut.ne_pause (h : Cut p a rs q) : q ≠ .pause := by
  cases h <;> nofun

lemma Cut.not_call (h : Cut p a rs q) (c : γ) : .call c ∉ rs ∧ q ≠ .call c := by
  cases h <;> simp

section

universe u v

variable {σ : Type u} {m : Type u → Type v} [Monad m] [LawfulMonad m]
  {f : σ → Report α κ γ → m σ}

/-- Two parts of a span are as good as the whole. -/
def Joins (f : σ → Report α κ γ → m σ) : Prop :=
  ∀ s k a b, f s (.span k (a ++ b)) = f s (.span k a) >>= fun s' => f s' (.span k b)

lemma foldlM_cut (hf : Joins f) {p q : Piece α κ γ} {a : List α} {rs : List (Report α κ γ)}
    (h : Cut p a rs q) (before after : List (Piece α κ γ)) (s : σ) :
    ((reports before ++ rs).foldlM f s >>= fun s' => (reports (q :: after)).foldlM f s') =
      (reports (before ++ p :: after)).foldlM f s := by
  cases h with
  | skip h | before k b => simp
  | span k h => simp [h, hf _ k]

end

end Library.Spans
