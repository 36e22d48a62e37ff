import Megatron.Library.Programs
import Megatron.Rpc.Service
import Megatron.Telnet.Range

/-!
The sessions of the telnet service, and what its handlers may not do: which events are handled
without undefined behaviour (`Sound.handleEvent`, `handleEvent_undefined`), and that the numbers of
the sessions stay in the range of `int` (`inRange_next`).
-/

namespace Megatron.Telnet

open Library Library.Http Megatron.Http

abbrev Sessions := SocketId → Option Session

inductive Incoming where
  | accepted (s : SocketId)
  | streamRead (s : SocketId) (input : Bytes)
  | reply (s : SocketId) (buffer : Bytes)
  | disaccepted (s : SocketId)
  deriving DecidableEq

/-- `handleEvent`. It is undefined to use a session that is not there, to divide by zero and to
index out of range. -/
def handleEvent (regexec : Regexec) (svc : Service) : Incoming → Prog Sessions Exn (List Action)
  | .accepted s => fun sessions =>
    let W : Session := {}
    -- a session that is already there stays
    .done [.write ([255#8, 253#8, 34#8, 255#8, 251#8, 1#8] ++ ascii "\x1b[4h"),
      .write [iac, 253#8, 31#8], prompt svc W]
      (if (sessions s).isSome then sessions else Function.update sessions s (some W))
  | .streamRead s input => fun sessions =>
    match sessions s with
    | none => .done [] sessions
    | some W =>
      match onStreamRead regexec svc W input with
      | .error _ => .undefined
      | .ok (W, actions) => .done actions (Function.update sessions s (some W))
  | .reply s buffer => fun sessions =>
    match sessions s with
    | none => .undefined
    | some W =>
      let buf := buffer.flatMap fun c => if c = 10#8 then [13#8, c] else [c]
      .done [.write (bright (buf ++ crlf)), prompt svc W] sessions
  | .disaccepted s => fun sessions => .done [] (Function.update sessions s none)

/-! ### One read -/

/-- No arrow key divides by a width of zero. -/
def Session.Harmless (W : Session) (out : Bytes) : Prop :=
  W.width = 0 → (out = Key.left.bytes → W.curpos ≤ 0) ∧
    (out = Key.right.bytes → W.currentCommandLine.length ≤ W.curpos)

def Survives (r : Except Fault (Session × List Action)) : Prop :=
  ∃ W actions, r = .ok (W, actions) ∧ 0 ≤ W.curpos

section

variable {regexec : Regexec} {svc : Service} {W : Session} {out : Bytes}

lemma exists_eraseAtCursor (hpos : 0 ≤ W.curpos) (hlt : W.curpos < W.currentCommandLine.length) :
    ∃ W', eraseAtCursor W = .ok W' ∧ 0 ≤ W'.curpos := by
  have hle : toSize (W.curpos + 1) ≤ W.currentCommandLine.length := by
    rw [toSize]
    omega
  rw [eraseAtCursor, substr, substr, toSize_zero, if_neg (Nat.not_lt_zero _),
    if_neg (Nat.not_lt.mpr hle)]
  exact ⟨_, rfl, hpos⟩

variable (hpos : 0 ≤ W.curpos)
include hpos

lemma curpos_recallHistory (next : ℤ) : 0 ≤ (recallHistory svc W next).1.curpos := by
  simp only [recallHistory]
  split_ifs
  · exact hpos
  · exact Int.natCast_nonneg _
  · exact le_rfl

lemma survives_onKey {k : Key} (h : W.Harmless k.bytes) : Survives (onKey svc W k) := by
  cases k with
  | bs1 | bs2 =>
    by_cases hcur : 0 < W.curpos
    · simp only [onKey, if_pos hcur]
      split_ifs with hlt
      · obtain ⟨W', herase, hpos'⟩ :=
          @exists_eraseAtCursor { W with curpos := W.curpos - 1 } (Int.sub_nonneg_of_le hcur) hlt
        rw [herase]
        exact ⟨_, _, rfl, hpos'⟩
      · exact ⟨_, _, rfl, Int.sub_nonneg_of_le hcur⟩
    · rw [onKey, if_neg hcur]
      exact ⟨_, _, rfl, hpos⟩
  | delete =>
    rw [onKey]
    split_ifs with hlt
    · obtain ⟨W', herase, hpos'⟩ := exists_eraseAtCursor hpos hlt
      rw [herase]
      exact ⟨_, _, rfl, hpos'⟩
    · exact ⟨_, _, rfl, hpos⟩
  | left =>
    by_cases hcur : 0 < W.curpos
    · have hwidth : W.width ≠ 0 := fun hw => absurd ((h hw).1 rfl) (not_le.mpr hcur)
      rw [onKey, if_pos hcur, if_neg hwidth]
      exact ⟨_, _, rfl, Int.sub_nonneg_of_le hcur⟩
    · rw [onKey, if_neg hcur]
      exact ⟨_, _, rfl, hpos⟩
  | right =>
    by_cases hcur : W.curpos < W.currentCommandLine.length
    · have hwidth : W.width ≠ 0 := fun hw => absurd ((h hw).2 rfl) (not_le.mpr hcur)
      rw [onKey, if_pos hcur, if_neg hwidth]
      exact ⟨_, _, rfl, Int.add_nonneg hpos Int.one_nonneg⟩
    · rw [onKey, if_neg hcur]
      exact ⟨_, _, rfl, hpos⟩
  | up => exact ⟨_, _, rfl, curpos_recallHistory hpos _⟩
  | down => exact ⟨_, _, rfl, curpos_recallHistory hpos _⟩
  | tab => exact ⟨_, _, rfl, Int.add_nonneg hpos (Int.natCast_nonneg _)⟩
  | _ => exact ⟨_, _, rfl, hpos⟩

lemma curpos_onChar (c : Byte) : 0 ≤ (onChar regexec svc W c).1.curpos := by
  rw [onChar]
  split_ifs
  · exact hpos
  · exact hpos
  · obtain ⟨dirs, hrun⟩ := runLine_fst regexec svc _ W.currentCommandLine
    rw [processCommand, hrun]
    exact hpos
  · exact Int.add_nonneg (Int.natCast_nonneg _) Int.one_nonneg

lemma survives_onKeys (h : W.Harmless out) : Survives (onKeys regexec svc W out) := by
  cases hk : Key.ofBytes out with
  | some k =>
    obtain rfl := Key.eq_bytes_of_ofBytes hk
    rw [onKeys_bytes]
    exact survives_onKey hpos h
  | none =>
    cases out with
    | nil => exact ⟨_, _, rfl, hpos⟩
    | cons c rest =>
      rw [onKeys_of_none hk]
      exact ⟨_, _, rfl, curpos_onChar hpos c⟩

end

lemma onKeys_error {W : Session} {out : Bytes} (h : ¬ W.Harmless out) (regexec : Regexec)
    (svc : Service) : onKeys regexec svc W out = .error .divisionByZero := by
  simp only [Session.Harmless, Classical.not_imp, not_and_or, not_le] at h
  obtain ⟨hwidth, ⟨rfl, hcur⟩ | ⟨rfl, hcur⟩⟩ := h
  · rw [onKeys_bytes, onKey, if_pos hcur, if_pos hwidth]
  · rw [onKeys_bytes, onKey, if_pos hcur]
    exact if_pos hwidth

/-- The condition on an event: no arrow key divides by zero, and a reply has its session. -/
def Harmless (sessions : Sessions) : Incoming → Prop
  | .streamRead s input => ∀ W, sessions s = some W →
    (telnetCommands W input).1.Harmless (telnetCommands W input).2
  | .reply s _ => (sessions s).isSome
  | _ => True

section

variable {regexec : Regexec} {svc : Service} {sessions : Sessions} {e : Incoming}

/-- The cursors are not before their lines. -/
def Sound (sessions : Sessions) : Prop := ∀ s W, sessions s = some W → 0 ≤ W.curpos

lemma Sound.update (h : Sound sessions) {s : SocketId} {o : Option Session}
    (ho : ∀ W, o = some W → 0 ≤ W.curpos) : Sound (Function.update sessions s o) := by
  intro s' W hW
  rw [Function.update_apply] at hW
  split_ifs at hW with hs
  · exact ho W hW
  · exact h s' W hW

lemma Sound.handleEvent (h : Sound sessions) (he : Harmless sessions e) :
    (handleEvent regexec svc e).wp (fun _ => Sound) (fun _ => Sound) sessions := by
  cases e with
  | accepted s =>
    show Sound (if _ then _ else _)
    split_ifs
    · exact h
    · exact h.update fun W hW => Option.some.inj hW ▸ le_rfl
  | streamRead s input =>
    cases hW : sessions s with
    | none =>
      simp only [Prog.wp, Telnet.handleEvent, hW]
      exact h
    | some W =>
      obtain ⟨w, hgt, hcommands⟩ := telnetCommands_fst W input
      have hpos : 0 ≤ (telnetCommands W input).1.curpos := by
        rw [hcommands]
        exact h s W hW
      obtain ⟨W', actions, hread, hpos'⟩ : Survives (onKeys regexec svc _ _) :=
        survives_onKeys hpos (he W hW)
      simp only [Prog.wp, Telnet.handleEvent, hW, onStreamRead, hread]
      exact h.update fun W hW => Option.some.inj hW ▸ hpos'
  | reply s buffer =>
    obtain ⟨W, hW⟩ := Option.isSome_iff_exists.mp he
    simp only [Prog.wp, Telnet.handleEvent, hW]
    exact h
  | disaccepted s => exact h.update fun W hW => absurd hW.symm (Option.some_ne_none W)

lemma handleEvent_undefined (he : ¬ Harmless sessions e) :
    handleEvent regexec svc e sessions = .undefined := by
  cases e with
  | accepted s | disaccepted s => exact absurd trivial he
  | streamRead s input =>
    simp only [Harmless, not_forall] at he
    obtain ⟨W, hW, hread⟩ := he
    simp only [handleEvent, hW, onStreamRead, onKeys_error hread]
  | reply s buffer => simp only [handleEvent, Option.not_isSome_iff_eq_none.mp he]

/-- The session of a read is of moderate size. -/
def SizedAt (svc : Service) (sessions : Sessions) : Incoming → Prop
  | .streamRead s _ => ∀ W, sessions s = some W → W.Sized svc
  | _ => True

/-- The lines and cursors can be held by an `int`. -/
def InRange (sessions : Sessions) : Prop := ∀ s W, sessions s = some W → W.InRange

lemma InRange.update (h : InRange sessions) {s : SocketId} {o : Option Session}
    (ho : ∀ W, o = some W → W.InRange) : InRange (Function.update sessions s o) := by
  intro s' W hW
  rw [Function.update_apply] at hW
  split_ifs at hW with hs
  · exact ho W hW
  · exact h s' W hW

lemma inRange_next {sessions' : Sessions} (h : InRange sessions) (he : SizedAt svc sessions e)
    (hnext : (handleEvent regexec svc e).next sessions = some sessions') : InRange sessions' := by
  cases e with
  | accepted s =>
    cases hnext
    split_ifs
    · exact h
    · exact h.update fun W hW => Option.some.inj hW ▸ ⟨by norm_num, by norm_num⟩
  | streamRead s input =>
    cases hW : sessions s with
    | none =>
      simp only [Prog.next, handleEvent, hW] at hnext
      exact Option.some.inj hnext ▸ h
    | some W =>
      simp only [Prog.next, handleEvent, hW] at hnext
      cases hread : onStreamRead regexec svc W input with
      | error fault =>
        rw [hread] at hnext
        cases hnext
      | ok p =>
        rw [hread] at hnext
        cases hnext
        exact h.update fun W' hW' =>
          Option.some.inj hW' ▸ (he W hW).inRange_onStreamRead hread
  | reply s buffer =>
    cases hW : sessions s with
    | none =>
      simp only [Prog.next, handleEvent, hW] at hnext
      cases hnext
    | some W =>
      simp only [Prog.next, handleEvent, hW] at hnext
      exact Option.some.inj hnext ▸ h
  | disaccepted s =>
    cases hnext
    exact h.update fun W hW => absurd hW.symm (Option.some_ne_none W)

/-- **A client cannot crash the service** without a width of zero and without stray replies, as long
as its sessions are of moderate size; their numbers are then in the range of `int`. -/
theorem telnet_defined_iff (regexec : Regexec) (svc : Service) (es : List Incoming)
    (hsized : Meets (fun sessions e => (handleEvent regexec svc e).next sessions) (SizedAt svc)
      (fun _ => none) es) :
    ((∃ sessions, run (fun sessions e => (handleEvent regexec svc e).next sessions) (fun _ => none)
      es = some sessions) ↔
    Meets (fun sessions e => (handleEvent regexec svc e).next sessions) Harmless (fun _ => none)
      es) ∧
    ∀ sessions, run (fun sessions e => (handleEvent regexec svc e).next sessions) (fun _ => none)
      es = some sessions → ∀ s W, sessions s = some W → 0 ≤ W.curpos ∧ W.InRange := by
  have hnone : Sound fun _ => none := fun s W hW => absurd hW.symm (Option.some_ne_none W)
  have hmeets {sessions : Sessions}
      (hrun : run (fun sessions e => (handleEvent regexec svc e).next sessions) (fun _ => none)
        es = some sessions) := meets_of_run (fun _ _ h he => Sound.handleEvent h he)
      (fun _ _ _ he => handleEvent_undefined he) hnone hrun
  refine ⟨⟨fun ⟨sessions, hrun⟩ => hmeets hrun, fun h => ?_⟩, fun sessions hrun s W hW => ?_⟩
  · obtain ⟨sessions, hrun, -⟩ := run_defined (fun _ _ h he => h.handleEvent he) hnone h
    exact ⟨sessions, hrun⟩
  · obtain ⟨sessions', hrun', hsound⟩ :=
      run_defined (fun _ _ h he => Sound.handleEvent h he) hnone (hmeets hrun)
    cases hrun.symm.trans hrun'
    have hrange : InRange sessions := run_invariant (fun h he hnext => inRange_next h he hnext)
      (fun s W hW => absurd hW.symm (Option.some_ne_none W)) hsized hrun
    exact ⟨hsound s W hW, hrange s W hW⟩

/-- A client types `a`, and a reply is written. -/
def typedAndReplied : List Incoming :=
  [.accepted 1#64, .streamRead 1#64 [97#8], .reply 1#64 []]

theorem telnet_defined_typedAndReplied : ∃ sessions,
    run (fun sessions e => (handleEvent (fun _ _ => .ok none) ⟨[], Node.top⟩ e).next sessions)
      (fun _ => none) typedAndReplied = some sessions ∧
    ∀ s W, sessions s = some W → 0 ≤ W.curpos ∧ W.InRange := by
  have hsized : Meets
      (fun sessions e => (handleEvent (fun _ _ => .ok none) ⟨[], Node.top⟩ e).next sessions)
      (SizedAt ⟨[], Node.top⟩) (fun _ => none) typedAndReplied := by
    refine ⟨trivial, fun W hW => ?_, trivial, trivial⟩
    cases hW
    exact ⟨by decide, by decide, by decide, by decide, by decide, by decide⟩
  have hharmless : Meets
      (fun sessions e => (handleEvent (fun _ _ => .ok none) ⟨[], Node.top⟩ e).next sessions)
      Harmless (fun _ => none) typedAndReplied := by
    refine ⟨trivial, fun W hW => ?_, rfl, trivial⟩
    cases hW
    exact fun hwidth => absurd hwidth (by decide)
  obtain ⟨hiff, hrange⟩ := telnet_defined_iff _ _ _ hsized
  obtain ⟨sessions, hrun⟩ := hiff.mpr hharmless
  exact ⟨sessions, hrun, hrange sessions hrun⟩

theorem telnet_crashes :
    (run (fun sessions e => (handleEvent (fun _ _ => .ok none) ⟨[], Node.top⟩ e).next sessions)
      (fun _ => none) [.accepted 1#64, .streamRead 1#64 [97#8],
        .streamRead 1#64 ([iac, sb, 31#8, 0#8, 0#8, 0#8, 0#8] ++ Key.left.bytes)]).isNone ∧
    (run (fun sessions e => (handleEvent (fun _ _ => .ok none) ⟨[], Node.top⟩ e).next sessions)
      (fun _ => none) [.reply 1#64 []]).isNone := by
  decide +kernel

end

end Megatron.Telnet
