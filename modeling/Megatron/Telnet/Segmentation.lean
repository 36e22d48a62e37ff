import Megatron.Telnet.Range
import Megatron.Telnet.Tokens

/-!
How the outcome of a telnet stream depends on the reads into which it is divided. The outcome
is the session, the commands that are passed on and whether the connection is closed. `IAC` bytes
behind the first byte do nothing (`idle_of_quiet`), and every other byte can be given a session in
which the reads matter (`Mobile.not_independent`, `independent_iff`).
-/

namespace Megatron.Telnet

open Library List Key Telnet.Action

/-- The byte `y` before `q` is `IAC`, or it is `ESC` at the end. -/
def QuietAt (y : Byte) (q : Bytes) : Prop := y = iac ∨ y = 27#8 ∧ q = []

/-- All bytes are `IAC`; the last one can be `ESC`. -/
def Quiet : Bytes → Prop
  | [] => True
  | y :: q => QuietAt y q ∧ Quiet q

lemma Quiet.of_append {u v : Bytes} (h : Quiet (u ++ v)) : Quiet u ∧ Quiet v := by
  induction u with
  | nil => exact ⟨trivial, h⟩
  | cons y u ih =>
    obtain ⟨hy, huv⟩ := h
    obtain ⟨hu, hv⟩ := ih huv
    refine ⟨⟨hy.imp_right fun hesc => ⟨hesc.1, ?_⟩, hu⟩, hv⟩
    exact (append_eq_nil_iff.mp hesc.2).1

lemma Quiet.of_infix {u t : Bytes} (ht : Quiet t) (h : u <:+: t) : Quiet u := by
  obtain ⟨a, b, rfl⟩ := h
  exact ht.of_append.1.of_append.2

lemma exists_last_not_quiet {t : Bytes} (h : ¬ Quiet t) :
    ∃ p y q, t = p ++ y :: q ∧ ¬ QuietAt y q ∧ Quiet q := by
  induction t with
  | nil => exact absurd trivial h
  | cons y q ih =>
    by_cases hq : Quiet q
    · exact ⟨[], y, q, rfl, fun hy => h ⟨hy, hq⟩, hq⟩
    · obtain ⟨p, y', q', rfl, hy', hq'⟩ := ih hq
      exact ⟨y :: p, y', q', rfl, hy', hq'⟩

section

variable {regexec : Regexec} {svc : Service} {W : Session}

lemma telnetCommands_quiet {u : Bytes} (h : Quiet u) :
    ∃ v, telnetCommands W u = (W, v) ∧ Quiet v := by
  induction hn : u.length using Nat.strong_induction_on generalizing u with
  | _ n ih =>
    match u, h with
    | [], _ => exact ⟨[], rfl, trivial⟩
    | [y], h =>
      by_cases hy : y = iac
      · exact ⟨[], by rw [hy]; rfl, trivial⟩
      · exact ⟨[y], telnetCommands_of_ne hy W [], h⟩
    | y :: z :: q, h =>
      by_cases hy : y = iac
      · have hz : afterIac W (z :: q) = (W, q) := by
          rcases h.2.1 with rfl | ⟨rfl, -⟩ <;> rfl
        rw [hy, telnetCommands_iac, hz]
        simp only [length_cons] at hn
        exact ih q.length (by omega) h.2.2 rfl
      · exact ⟨y :: z :: q, telnetCommands_of_ne hy W _, h⟩

/-- **Quiet bytes do nothing.** -/
lemma idle_of_quiet {u : Bytes} (h : Quiet u) :
    Idle (onStreamRead regexec svc) consequence W u := by
  obtain ⟨v, hv, hquiet⟩ := telnetCommands_quiet (W := W) h
  have hstop := telnetCommands_stop W u
  rw [hv] at hstop
  have hread : onStreamRead regexec svc W u = onKeys regexec svc W v := by
    rw [onStreamRead, hv]
  rw [Idle, hread]
  cases v with
  | nil => exact ⟨[], rfl, rfl⟩
  | cons y q =>
    rcases hquiet.1 with rfl | ⟨rfl, rfl⟩
    · exact absurd rfl hstop
    · exact ⟨_, onKeys_bytes Key.esc, rfl⟩

lemma independent_of_quiet {x : Byte} {t : Bytes} (hx : x ∉ keyHeads) (ht : Quiet t) :
    Independent (onStreamRead regexec svc) consequence (x :: t) := by
  refine independent_cons (fun W => idle_of_quiet trivial) (fun W u hu => ?_)
    (fun W u hu => idle_of_quiet (ht.of_infix hu))
  have hquiet : Quiet u := ht.of_infix hu.isInfix
  by_cases hiac : x = iac
  · have h₁ : Quiet (x :: u) := ⟨.inl hiac, hquiet⟩
    have h₂ : Quiet [x] := ⟨.inl hiac, trivial⟩
    rw [outcome_idle (idle_of_quiet h₁), outcome_idle (idle_of_quiet h₂)]
  · rw [outcome_cons_ok (onStreamRead_char hiac (ofBytes_of_head hx u)),
      outcome_cons_ok (onStreamRead_char hiac (ofBytes_of_head hx []))]

lemma independent_of_length {s : Bytes} (h : s.length ≤ 1) :
    Independent (onStreamRead regexec svc) consequence s := by
  have hnil (W : Session) : Idle (onStreamRead regexec svc) consequence W [] :=
    idle_of_quiet trivial
  match s, h with
  | [], _ =>
    have hall (W : Session) {reads : List Bytes} (hreads : reads.flatten = []) :
        outcome (onStreamRead regexec svc) consequence W reads = .ok (W, []) := by
      refine outcome_all_idle fun r hr => ?_
      rw [flatten_eq_nil_iff.mp hreads r hr]
      exact hnil W
    intro W reads reads' hreads hreads'
    rw [hall W hreads, hall W hreads']
  | [x], _ =>
    refine independent_cons hnil (fun W u hu => ?_) (fun W u hu => ?_)
    · rw [prefix_nil.mp hu]
    · rw [infix_nil.mp hu]
      exact hnil W

end

/-! ### Bytes that change the session -/

structure Mobile (svc : Service) (W : Session) : Prop where
  insertMode : W.insertMode = true
  curpos : 0 < W.curpos
  completes : (complete svc W).1 ≠ W

section

variable {regexec : Regexec} {svc : Service} {W W' : Session}

lemma typeChar_ne (h : W.insertMode = true) (c : Byte) : typeChar W c ≠ W := by
  intro he
  have hline := congrArg (fun W => W.currentCommandLine.length) he
  simp only [typeChar, h, if_true, length_append, length_cons, length_take, length_drop] at hline
  omega

lemma commandHistory_processCommand : (processCommand regexec svc W).1.commandHistory =
      W.commandHistory ++ [W.currentCommandLine] := by
  obtain ⟨dirs, hrun⟩ := runLine_fst regexec svc _ W.currentCommandLine
  rw [processCommand, hrun]

lemma processCommand_ne : (processCommand regexec svc W).1 ≠ W := by
  intro he
  have hlen := congrArg (fun W => W.commandHistory.length) he
  simp only [commandHistory_processCommand, length_append, length_singleton] at hlen
  omega

lemma onStreamRead_bs {y : Byte} (hy : y = 8#8 ∨ y = 127#8) :
    onStreamRead regexec svc W [y] = onKey svc W .bs1 := by
  rcases hy with rfl | rfl
  · exact onStreamRead_key .bs1
  · exact onStreamRead_key .bs2

lemma curpos_bs (hpos : 0 < W.curpos) {as : List Action} (h : onKey svc W .bs1 = .ok (W', as)) :
    W'.curpos = W.curpos - 1 := by
  simp only [onKey, if_pos hpos] at h
  split_ifs at h with hlen
  · obtain ⟨W₁, herase, h⟩ := exists_of_bind_ok h
    cases h
    exact (eraseAtCursor_length herase).2
  · cases h
    rfl

lemma Mobile.ne (hW : Mobile svc W) {y : Byte} {as : List Action} (hy : y ≠ 3#8) (hiac : y ≠ iac)
    (hesc : y ≠ 27#8) (h : onStreamRead regexec svc W [y] = .ok (W', as)) : W' ≠ W := by
  by_cases hbs : y = 8#8 ∨ y = 127#8
  · rw [onStreamRead_bs hbs] at h
    intro he
    have hcur := curpos_bs hW.curpos h
    rw [he] at hcur
    omega
  · by_cases htab : y = 9#8
    · have hread : onStreamRead regexec svc W [y] = .ok (complete svc W) := by
        rw [htab]
        exact onStreamRead_key .tab
      rw [hread] at h
      obtain rfl : (complete svc W).1 = W' := congrArg Prod.fst (Except.ok.inj h)
      exact hW.completes
    · have hhead : y ∉ keyHeads := by
        simp only [keyHeads, mem_cons, not_mem_nil]
        tauto
      rw [onStreamRead_char hiac (ofBytes_of_head hhead [])] at h
      obtain rfl : (onChar regexec svc W y).1 = W' := congrArg Prod.fst (Except.ok.inj h)
      rw [onChar, if_neg hy, if_neg htab]
      split_ifs with hcr
      · exact processCommand_ne
      · exact typeChar_ne hW.insertMode y

lemma Key.head_or_single (k : Key) : k.bytes.headD 0#8 = 27#8 ∨ k.bytes.length = 1 := by
  cases k <;> decide

lemma Key.third_or_single (k : Key) :
    (k.bytes.drop 2).headD 3#8 ∉ [3#8, iac, 27#8] ∨ k.bytes.length = 1 := by
  cases k <;> decide

lemma Key.ofBytes_quiet (x z : Byte) {r : Bytes} (hr : Quiet r) : ofBytes (x :: z :: r) = none := by
  rw [Option.eq_none_iff_forall_ne_some]
  intro k hk
  have hbytes := eq_bytes_of_ofBytes hk
  rcases k.third_or_single with h | h
  · refine h ?_
    rw [← hbytes]
    change r.headD 3#8 ∈ _
    cases r with
    | nil => decide
    | cons y q => rcases hr.1 with rfl | ⟨rfl, -⟩ <;> simp
  · rw [← hbytes] at h
    simp at h

lemma Key.ofBytes_long {x z : Byte} (hx : x ≠ 27#8) (r : Bytes) : ofBytes (x :: z :: r) = none := by
  rw [Option.eq_none_iff_forall_ne_some]
  intro k hk
  have hbytes := eq_bytes_of_ofBytes hk
  rcases k.head_or_single with h | h
  · rw [← hbytes] at h
    exact hx h
  · rw [← hbytes] at h
    simp at h

lemma Mobile.moves (hW : Mobile svc W) {y : Byte} {q : Bytes} (hy : ¬ QuietAt y q) (hq : Quiet q) :
    ∃ reads : List Bytes, reads.flatten = y :: q ∧
      outcome (onStreamRead regexec svc) consequence W reads ≠ .ok (W, []) := by
  simp only [QuietAt, not_or, not_and] at hy
  obtain ⟨hiac, hesc⟩ := hy
  by_cases h3 : y = 3#8
  · -- `^C` closes the connection
    refine ⟨[[y], q], by simp, fun h => ?_⟩
    rw [h3, outcome_cons_ok (onStreamRead_char (by decide) (ofBytes_of_head (by decide) [])),
      outcome_idle (idle_of_quiet hq), outcome_nil] at h
    cases h
  by_cases h27 : y = 27#8
  · -- `ESC` with a byte after it is typed
    obtain ⟨z, r, rfl⟩ := exists_cons_of_ne_nil (hesc h27)
    refine ⟨[y :: z :: r], by simp, fun h => ?_⟩
    rw [outcome_cons_ok (onStreamRead_char hiac (ofBytes_quiet y z hq.2)), outcome_nil] at h
    refine typeChar_ne hW.insertMode y ?_
    rw [h27] at h ⊢
    exact congrArg Prod.fst (Except.ok.inj h)
  · refine ⟨[[y], q], by simp, fun h => ?_⟩
    obtain ⟨W₁, as, c', hread, hrest⟩ := exists_of_outcome_cons h
    rw [outcome_idle (idle_of_quiet hq), outcome_nil] at hrest
    exact hW.ne h3 hiac h27 hread (congrArg Prod.fst (Except.ok.inj hrest))

end

variable {W : Session} {as : List Action} {r : Bytes} {x y z : Byte}

/-! ### Streams whose outcome depends on the reads -/

lemma Mobile.not_independent {regexec : Regexec} {svc : Service} {W₀ : Session}
    {a q : Bytes} (h : onStreamRead regexec svc W₀ a = .ok (W, as))
    (h' : onStreamRead regexec svc W₀ (a ++ [y]) = .ok (W, as)) (hW : Mobile svc W)
    (hy : ¬ QuietAt y q) (hq : Quiet q) :
    ¬ Independent (onStreamRead regexec svc) consequence (a ++ y :: q) := by
  intro hind
  obtain ⟨reads, hreads, hmoves⟩ : ∃ reads : List Bytes, reads.flatten = y :: q ∧
      outcome (onStreamRead regexec svc) consequence W reads ≠ .ok (W, []) := hW.moves hy hq
  have heq := hind W₀ (a :: reads) [a ++ [y], q] (by rw [flatten_cons, hreads]) (by simp)
  rw [outcome_cons_ok h', outcome_cons_ok h, outcome_idle (idle_of_quiet hq), outcome_nil] at heq
  cases hrest : outcome (onStreamRead regexec svc) consequence W reads with
  | error e =>
    rw [hrest] at heq
    cases heq
  | ok p =>
    rw [hrest] at heq
    obtain ⟨hsame, hseen⟩ := Prod.mk.inj (Except.ok.inj heq)
    refine hmoves (hrest.trans (congrArg _ (Prod.ext hsame ?_)))
    simpa using hseen

def noMatch : Regexec := fun _ _ => .ok none

def offering (x : Byte) : Service :=
  ⟨[], ⟨[], [], [], [([97#8, x, 97#8], ⟨[], [97#8, x, 97#8], []⟩)]⟩⟩

def bare : Service := ⟨[], Node.top⟩

/-- A session in which `a` was typed. -/
def typedA : Session := { currentCommandLine := [97#8], curpos := 1 }

lemma strmax_self (s : Bytes) : strmax s s = s.length := by
  induction s with
  | nil => rfl
  | cons a s ih => rw [strmax, if_neg (not_not.mpr rfl), ih, length_cons]

lemma getAutoAppendString_single {templ name : Bytes} (h : templ <+: name) (hname : name ≠ []) :
    getAutoAppendString [name] templ = name.drop templ.length := by
  obtain ⟨a, rest, rfl⟩ := exists_cons_of_ne_nil hname
  have hfilter : [a :: rest].filter (fun s => find templ s = some 0) = [a :: rest] := by
    rw [filter_cons, find_cons_pos h]
    rfl
  rw [getAutoAppendString, hfilter]
  simp only [foldl_cons, foldl_nil, strmax_self, Nat.lt_irrefl, if_false]
  rw [← length_drop, take_length]

lemma mobile_offering (hnode : W.defaultNode = []) (hmode : W.insertMode = true)
    (hpos : 0 < W.curpos) (hline : W.currentCommandLine <+: [97#8, x, 97#8])
    (hlen : W.currentCommandLine.length < 3) : Mobile (offering x) W := by
  refine ⟨hmode, hpos, fun he => ?_⟩
  have hline' := congrArg (fun W => W.currentCommandLine.length) he
  have hnames : ((offering x).commands W).map Prod.fst ++
      ((offering x).children W).map (fun i => i.2.name) = [[97#8, x, 97#8]] := by
    rw [Service.commands, Service.children, hnode]
    rfl
  simp only [complete, hnames, getAutoAppendString_single hline (cons_ne_nil _ _),
    length_append, length_drop, length_cons, length_nil] at hline'
  omega

lemma mobile_onChar (x : Byte) : Mobile (offering x) (onChar noMatch (offering x) typedA x).1 := by
  have htyped : Mobile (offering x) typedA :=
    mobile_offering rfl rfl (by decide) ⟨[x, 97#8], rfl⟩ (by decide)
  rw [onChar]
  split_ifs with h3 htab hcr
  · exact htyped
  · exact htyped
  · rw [hcr]
    exact mobile_offering (by decide) (by decide) (by decide) (by decide) (by decide)
  · exact mobile_offering rfl rfl (by change (0 : ℤ) < 1 + 1; decide) ⟨[97#8], rfl⟩
      (by change 2 < 3; decide)

lemma not_independent_of_char {p q : Bytes} (hx : x ≠ iac) (h : ofBytes (x :: p) = none)
    (h' : ofBytes (x :: (p ++ [y])) = none) (hy : ¬ QuietAt y q) (hq : Quiet q) :
    ¬ Independent (onStreamRead noMatch (offering x)) consequence (x :: (p ++ y :: q)) :=
  (mobile_onChar x).not_independent (a := x :: p) (onStreamRead_char hx h)
    (onStreamRead_char hx h') hy hq

lemma line_of_single (hx : x ∈ keyHeads)
    (h : onStreamRead noMatch bare {} [z] = .ok (W, as)) : W.currentCommandLine ≠ [x] := by
  by_cases hhead : z ∈ keyHeads
  · simp only [keyHeads, mem_cons, not_mem_nil, or_false] at hhead
    rcases hhead with rfl | rfl | rfl | rfl <;> cases h <;> exact cons_ne_nil _ _ |>.symm
  · by_cases hiac : z = iac
    · rw [hiac] at h
      cases h
      exact (cons_ne_nil _ _).symm
    · rw [onStreamRead_char hiac (ofBytes_of_head hhead [])] at h
      obtain rfl : (onChar noMatch bare {} z).1 = W := congrArg Prod.fst (Except.ok.inj h)
      rw [onChar]
      split_ifs with h3 htab hcr
      · exact (cons_ne_nil _ _).symm
      · exact (cons_ne_nil _ _).symm
      · exact (cons_ne_nil _ _).symm
      · intro he
        obtain rfl : z = x := (List.cons.inj he).1
        exact hhead hx

lemma not_independent_of_typed (hx : x = 8#8 ∨ x = 27#8 ∨ x = 127#8) (hr : Quiet r) :
    ¬ Independent (onStreamRead noMatch bare) consequence (x :: z :: r) := by
  intro hind
  have hidle : Idle (onStreamRead noMatch bare) consequence {} [x] := by
    rcases hx with rfl | rfl | rfl <;> exact ⟨_, rfl, rfl⟩
  have hhead : x ∈ keyHeads := by
    rcases hx with rfl | rfl | rfl <;> decide
  have htyped : onChar noMatch bare {} x = (typeChar {} x, [.write [x]]) := by
    rcases hx with rfl | rfl | rfl <;> rfl
  have hiac : x ≠ iac := fun h => iac_notMem_keyHeads (h ▸ hhead)
  have hwhole : onStreamRead noMatch bare {} (x :: z :: r) = .ok (typeChar {} x, [.write [x]]) := by
    rw [onStreamRead_char hiac (ofBytes_quiet x z hr), htyped]
  have heq := hind {} [[x], [z], r] [x :: z :: r] (by simp) (by simp)
  rw [outcome_idle hidle, outcome_cons_ok hwhole, outcome_nil] at heq
  obtain ⟨W, as, c, hread, hrest⟩ := exists_of_outcome_cons heq
  rw [outcome_idle (idle_of_quiet hr), outcome_nil] at hrest
  cases hrest
  exact line_of_single hhead hread rfl

lemma not_independent_of_tab (hr : Quiet r) :
    ¬ Independent (onStreamRead noMatch (offering 9#8)) consequence (9#8 :: z :: r) := by
  intro hind
  have htab : onStreamRead noMatch (offering 9#8) typedA [9#8] =
      .ok ({ currentCommandLine := [97#8, 9#8, 97#8], curpos := 3 }, [.write [9#8, 97#8]]) := rfl
  have hwhole : onStreamRead noMatch (offering 9#8) typedA (9#8 :: z :: r) = .ok (typedA, []) :=
    onStreamRead_char (by decide) (ofBytes_quiet 9#8 z hr)
  have heq := hind typedA [[9#8], [z], r] [9#8 :: z :: r] (by simp) (by simp)
  rw [outcome_cons_ok hwhole, outcome_nil] at heq
  obtain ⟨W, as, c, hread, hrest⟩ := exists_of_outcome_cons heq
  cases htab.symm.trans hread
  obtain ⟨W', as', c', hread', hrest'⟩ := exists_of_outcome_cons hrest
  rw [outcome_idle (idle_of_quiet hr), outcome_nil] at hrest'
  obtain rfl : W' = typedA := congrArg Prod.fst (Except.ok.inj hrest')
  by_cases hhead : z ∈ keyHeads
  · simp only [keyHeads, mem_cons, not_mem_nil, or_false] at hhead
    rcases hhead with rfl | rfl | rfl | rfl <;> cases hread'
  · by_cases hiac : z = iac
    · rw [hiac] at hread'
      cases hread'
    · rw [onStreamRead_char hiac (ofBytes_of_head hhead [])] at hread'
      have hsession := congrArg Prod.fst (Except.ok.inj hread')
      rw [onChar] at hsession
      split_ifs at hsession with h3 htab hcr
      · cases hsession
      · cases hsession
      · cases hsession
      · cases hsession

lemma onStreamRead_iac_single (regexec : Regexec) (svc : Service) (W : Session) (z : Byte) :
    onStreamRead regexec svc W [iac, z] = .ok (W, []) := by
  have hafter : afterIac W [z] = (W, []) := by
    rw [afterIac]
    split_ifs with hverb hsb <;> rfl
  rw [onStreamRead, telnetCommands_iac, hafter]
  rfl

lemma not_independent_of_iac (hz : ¬ QuietAt z r) (hr : Quiet r) :
    ¬ Independent (onStreamRead noMatch (offering 0#8)) consequence (iac :: z :: r) := by
  have htyped : Mobile (offering 0#8) typedA :=
    mobile_offering rfl rfl (by decide) ⟨_, rfl⟩ (by decide)
  exact htyped.not_independent (a := [iac]) rfl (onStreamRead_iac_single noMatch _ _ z) hz hr

/-- **For which streams the outcome does not depend on the reads.** -/
theorem independent_iff (s : Bytes) :
    (∀ regexec svc, Independent (onStreamRead regexec svc) Action.consequence s) ↔
      s.length ≤ 1 ∨ ∃ x t, s = x :: t ∧ x ∉ keyHeads ∧ Quiet t := by
  constructor
  · induction s with
    | nil => exact fun _ => .inl (Nat.zero_le _)
    | cons x t ih =>
      intro hind
      cases t with
      | nil => exact .inl le_rfl
      | cons z r =>
        refine .inr ⟨x, z :: r, rfl, ?_⟩
        -- if `x` is idle alone, the stream without it is independent as well
        have hrest (hx : QuietAt x []) : Quiet r := by
          have htail := ih fun regexec svc =>
            (hind regexec svc).tail fun W => idle_of_quiet ⟨hx, trivial⟩
          rcases htail with hlen | ⟨z', r', he, -, hr'⟩
          · rw [length_eq_zero_iff.mp (Nat.le_zero.mp (Nat.le_of_succ_le_succ hlen))]
            exact trivial
          · rwa [(List.cons.inj he).2]
        by_cases hiac : x = iac
        · have hr := hrest (.inl hiac)
          rw [hiac] at hind ⊢
          refine ⟨iac_notMem_keyHeads, by_contra fun hz => ?_, hr⟩
          exact not_independent_of_iac hz hr (hind _ _)
        by_cases hesc : x = 27#8
        · have hr := hrest (.inr ⟨hesc, rfl⟩)
          exact absurd (hind noMatch bare)
            (not_independent_of_typed (.inr (.inl hesc)) hr)
        -- the first read has the second byte, which does not count
        have hr : Quiet r := by
          by_contra hr
          obtain ⟨p, y, q, rfl, hy, hq⟩ := exists_last_not_quiet hr
          exact not_independent_of_char (p := z :: p) hiac (ofBytes_long hesc p)
            (ofBytes_long hesc _) hy hq (hind _ _)
        by_cases hbs : x = 8#8 ∨ x = 127#8
        · exact absurd (hind noMatch bare) (not_independent_of_typed (by tauto) hr)
        by_cases htab : x = 9#8
        · rw [htab] at hind
          exact absurd (hind noMatch _) (not_independent_of_tab hr)
        have hhead : x ∉ keyHeads := by
          simp only [keyHeads, mem_cons, not_mem_nil]
          tauto
        refine ⟨hhead, by_contra fun hz => ?_, hr⟩
        exact not_independent_of_char (p := []) hiac (ofBytes_of_head hhead _)
          (ofBytes_of_head hhead _) hz hr (hind _ _)
  · rintro (hlen | ⟨x, t, rfl, hx, ht⟩) regexec svc
    · exact independent_of_length hlen
    · exact independent_of_quiet hx ht

theorem pasted_text_depends_on_reads :
    outcome (onStreamRead noMatch bare) Action.consequence {} [[97#8, 98#8]] =
      .ok ({ currentCommandLine := [97#8], curpos := 1 }, []) ∧
    outcome (onStreamRead noMatch bare) Action.consequence {} [[97#8], [98#8]] =
      .ok ({ currentCommandLine := [97#8, 98#8], curpos := 2 }, []) ∧
    outcome (onStreamRead noMatch bare) Action.consequence {}
      [[iac, sb, 31#8, 0#8, 100#8, 0#8, 40#8, iac, se]] =
      .ok ({ width := 100, height := 40 }, []) ∧
    outcome (onStreamRead noMatch bare) Action.consequence {}
      [[iac, sb, 31#8, 0#8], [100#8, 0#8, 40#8, iac, se]] =
      .ok ({ currentCommandLine := [100#8], curpos := 1, width := 0, height := 0 }, []) := by
  refine ⟨?_, ?_, ?_, ?_⟩ <;> rfl

end Megatron.Telnet
