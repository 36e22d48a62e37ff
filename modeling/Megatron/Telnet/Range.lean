import Megatron.Library.Reads
import Megatron.Telnet.Session
import Mathlib.Data.List.GetD

/-!
The numbers of a telnet session that the code keeps in an `int`. In a session of moderate size no
read leaves the range (`Session.Sized.inRange_onStreamRead`).
-/

namespace Megatron.Telnet

open Library List

/-- The numbers of a session are so small that those of the session after the next read, and those
that this read writes, can be held by an `int`. -/
structure Session.Sized (svc : Service) (W : Session) : Prop where
  line : W.currentCommandLine.length < 2 ^ 30
  curpos : W.curpos < 2 ^ 30
  history : W.commandHistory.length < 2 ^ 30
  lines : ∀ l ∈ W.commandHistory, l.length < 2 ^ 30
  names : ∀ name ∈ (svc.commands W).map Prod.fst ++ (svc.children W).map (fun i => i.2.name),
    name.length < 2 ^ 30
  prompt : (promptString svc W).length + 100 < 2 ^ 30

/-- The line and the cursor can be held by an `int`. -/
structure Session.InRange (W : Session) : Prop where
  line : W.currentCommandLine.length < 2 ^ 31
  curpos : W.curpos < 2 ^ 31

section

variable {regexec : Regexec} {svc : Service} {W W' : Session} {actions : List Action}

lemma telnetCommands_fst (W : Session) (input : Bytes) :
    ∃ w h, (telnetCommands W input).1 = { W with width := w, height := h } := by
  have hiac (W : Session) (chars : Bytes) :
      ∃ w h, (afterIac W chars).1 = { W with width := w, height := h } := by
    cases chars with
    | nil => exact ⟨_, _, rfl⟩
    | cons cmd2 chars =>
      cases chars with
      | nil => rw [afterIac]; split_ifs <;> exact ⟨_, _, rfl⟩
      | cons cmd3 chars =>
        simp only [afterIac, subnegotiation]
        split_ifs <;> exact ⟨_, _, rfl⟩
  have hloop (n : ℕ) (W : Session) (chars : Bytes) :
      ∃ w h, (telnetCommandsIn W n chars).1 = { W with width := w, height := h } := by
    induction n generalizing W chars with
    | zero => cases chars <;> exact ⟨_, _, rfl⟩
    | succ n ih =>
      cases chars with
      | nil => exact ⟨_, _, rfl⟩
      | cons cmd1 chars =>
        rw [telnetCommandsIn]
        split_ifs
        · exact ⟨_, _, rfl⟩
        · obtain ⟨w, h, hfirst⟩ := hiac W chars
          obtain ⟨w', h', hrest⟩ := ih (afterIac W chars).1 (afterIac W chars).2
          exact ⟨w', h', by rw [hrest, hfirst]⟩
  exact hloop _ W input

lemma getAutoAppendString_short {v : List Bytes} {n : ℕ} (hv : ∀ s ∈ v, s.length < n) (hn : 0 < n)
    (templ : Bytes) : (getAutoAppendString v templ).length < n := by
  rw [getAutoAppendString]
  split
  · exact hn
  next vm₀ vm hvm =>
    have hmem : vm₀ ∈ v := mem_of_mem_filter (hvm ▸ mem_cons_self)
    refine lt_of_le_of_lt ?_ (hv vm₀ hmem)
    exact (((take_sublist _ _).trans (drop_sublist _ _)).length_le)

lemma eraseAtCursor_length (h : eraseAtCursor W = .ok W') :
    W'.currentCommandLine.length ≤ 2 * W.currentCommandLine.length ∧ W'.curpos = W.curpos := by
  simp only [eraseAtCursor, substr, bind, Except.bind] at h
  split_ifs at h
  cases h
  refine ⟨?_, rfl⟩
  simp only [length_append, length_take, length_drop]
  omega

namespace Session.Sized

variable (h : W.Sized svc)
include h

lemma inRange : W.InRange := ⟨h.line.trans (by norm_num), h.curpos.trans (by norm_num)⟩

lemma inRange_recallHistory (next : ℤ) : (recallHistory svc W next).1.InRange := by
  have hline := h.line
  simp only [recallHistory]
  split_ifs with hempty hidx
  · exact h.inRange
  · set line := W.commandHistory.getD _ []
    have hlt : line.length < 2 ^ 30 := by
      by_cases hi : toSize (W.commandHistory.length + W.commandHistoryPos + next) <
          W.commandHistory.length
      · simp only [line, getD_eq_getElem _ _ hi]
        exact h.lines _ (getElem_mem hi)
      · simp only [line, getD_eq_default _ _ (not_lt.mp hi), length_nil]
        norm_num
    exact ⟨by dsimp only; omega, by dsimp only; omega⟩
  · exact ⟨by dsimp only; omega, by norm_num⟩

lemma inRange_onKey {k : Key} (hk : onKey svc W k = .ok (W', actions)) : W'.InRange := by
  have hline := h.line
  have hcurpos := h.curpos
  cases k with
  | bs1 | bs2 =>
    simp only [onKey] at hk
    split_ifs at hk
    · obtain ⟨W₁, herase, hk⟩ := exists_of_bind_ok hk
      cases hk
      obtain ⟨hlen, hcur⟩ := eraseAtCursor_length herase
      exact ⟨by dsimp only at hlen; omega, by dsimp only at hcur; omega⟩
    · cases hk
      exact ⟨by dsimp only; omega, by dsimp only; omega⟩
    · cases hk
      exact h.inRange
  | delete =>
    simp only [onKey] at hk
    split_ifs at hk
    · obtain ⟨W₁, herase, hk⟩ := exists_of_bind_ok hk
      cases hk
      obtain ⟨hlen, hcur⟩ := eraseAtCursor_length herase
      exact ⟨by omega, by omega⟩
    · cases hk
      exact h.inRange
  | left | right =>
    simp only [onKey] at hk
    split_ifs at hk
    · cases hk
      exact ⟨by dsimp only; omega, by dsimp only; omega⟩
    · cases hk
      exact ⟨by dsimp only; omega, by dsimp only; omega⟩
    · cases hk
      exact h.inRange
  | up | down =>
    obtain rfl := congrArg Prod.fst (Except.ok.inj hk)
    exact h.inRange_recallHistory _
  | tab =>
    cases hk
    have happend := getAutoAppendString_short h.names (by norm_num) W.currentCommandLine
    refine ⟨?_, ?_⟩
    · rw [length_append]
      omega
    · dsimp only
      omega
  | insert =>
    cases hk
    exact ⟨h.inRange.line, h.inRange.curpos⟩
  | _ =>
    cases hk
    exact h.inRange

lemma inRange_onChar (c : Byte) : (onChar regexec svc W c).1.InRange := by
  have hline := h.line
  rw [onChar]
  split_ifs
  · exact h.inRange
  · exact h.inRange
  · obtain ⟨dirs, hrun⟩ := runLine_fst regexec svc _ W.currentCommandLine
    rw [processCommand, hrun]
    exact ⟨by norm_num, h.inRange.curpos⟩
  · rw [typeChar]
    refine ⟨?_, ?_⟩
    · dsimp only
      split_ifs <;> simp <;> omega
    · dsimp only
      omega

/-- **No read leaves the range of `int`.** -/
theorem inRange_onStreamRead {input : Bytes}
    (hread : onStreamRead regexec svc W input = .ok (W', actions)) : W'.InRange := by
  obtain ⟨w, hgt, hcommands⟩ := telnetCommands_fst W input
  have h' : (telnetCommands W input).1.Sized svc := by
    rw [hcommands]
    exact ⟨h.line, h.curpos, h.history, h.lines, h.names, h.prompt⟩
  rw [onStreamRead] at hread
  generalize (telnetCommands W input).2 = out at hread
  cases hk : Key.ofBytes out with
  | some k =>
    rw [Key.eq_bytes_of_ofBytes hk, onKeys_bytes] at hread
    exact h'.inRange_onKey hread
  | none =>
    cases out with
    | nil =>
      cases hread
      exact h'.inRange
    | cons c rest =>
      rw [onKeys_of_none hk] at hread
      obtain rfl := congrArg Prod.fst (Except.ok.inj hread)
      exact h'.inRange_onChar c

end Session.Sized

end

end Megatron.Telnet
