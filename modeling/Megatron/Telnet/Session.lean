import Megatron.Telnet.Commands

/-!
The reads of a telnet session (`Service::on_StreamRead` of `modules/telnet/telnetService.cpp`):
the telnet commands at the beginning of a read (`telnetCommands_stop`), the keys and the
characters.
-/

namespace Megatron.Telnet

open Library Library.Http Megatron.Http List

abbrev iac : Byte := 255#8

abbrev se : Byte := 240#8

abbrev sb : Byte := 250#8

/-- `WILL`, `WONT`, `DO` and `DONT`. -/
def isVerb (cmd2 : Byte) : Bool := 251 ≤ cmd2.toNat && cmd2.toNat ≤ 254

def isSlc (cmd5 : Byte) : Bool := 1 ≤ cmd5.toNat && cmd5.toNat ≤ 18

/-- The loop after `LM_SLC`. -/
def lmSlc : ℕ → Bytes → Bytes
  | _, [] => []
  | skip + 1, _ :: chars => lmSlc skip chars
  | 0, cmd5 :: chars =>
    if cmd5 = iac ∧ chars.head? = some se then chars.tail
    else lmSlc (if isSlc cmd5 then 2 else 0) chars

/-- What comes after `IAC SB TELOPT_LINEMODE`. -/
def linemode : Bytes → Bytes
  | [] => []
  | cmd4 :: chars => if cmd4 = 3#8 then lmSlc 0 chars else chars

/-- `TELOPT_NAWS`: a byte that is not there is zero. -/
def naws (W : Session) (chars : Bytes) : Session :=
  let byte (i : ℕ) : ℕ := (chars.getD i 0#8).toNat
  { W with width := (byte 0 <<< 8 ||| byte 1 : ℕ), height := (byte 2 <<< 8 ||| byte 3 : ℕ) }

/-- What comes after `IAC SB`. -/
def subnegotiation (W : Session) : Bytes → Session × Bytes
  | [] => (W, [])
  | cmd3 :: chars =>
    -- `TELOPT_LINEMODE`
    if cmd3 = 34#8 then (W, linemode chars)
    -- `TELOPT_NAWS`
    else if cmd3 = 31#8 then (naws W chars, chars.drop 4)
    else (W, chars)

/-- What comes after `IAC`. -/
def afterIac (W : Session) : Bytes → Session × Bytes
  | [] => (W, [])
  | cmd2 :: chars =>
    if isVerb cmd2 then (W, chars.drop 1)
    else if cmd2 = sb then subnegotiation W chars
    else (W, chars)

/-- The loop over the telnet commands, with a bound on its turns. -/
def telnetCommandsIn (W : Session) : ℕ → Bytes → Session × Bytes
  | n + 1, cmd1 :: chars =>
    if cmd1 ≠ iac then (W, cmd1 :: chars)
    else telnetCommandsIn (afterIac W chars).1 n (afterIac W chars).2
  | _, chars => (W, chars)

def telnetCommands (W : Session) (chars : Bytes) : Session × Bytes :=
  telnetCommandsIn W chars.length chars

lemma length_lmSlc_le (skip : ℕ) (chars : Bytes) : (lmSlc skip chars).length ≤ chars.length := by
  induction chars generalizing skip with
  | nil =>
    cases skip with
    | zero | succ skip => exact le_rfl
  | cons cmd5 chars ih =>
    cases skip with
    | succ skip => exact (ih skip).trans (Nat.le_succ _)
    | zero =>
      rw [lmSlc]
      split_ifs with hend
      · rw [length_tail, length_cons]
        omega
      · exact (ih _).trans (Nat.le_succ _)
      · exact (ih _).trans (Nat.le_succ _)

variable (k : Key) (W : Session) (chars : Bytes)

lemma length_linemode_le : (linemode chars).length ≤ chars.length := by
  cases chars with
  | nil => exact le_rfl
  | cons cmd4 chars =>
    rw [linemode]
    split_ifs with hslc
    · exact (length_lmSlc_le 0 chars).trans (Nat.le_succ _)
    · exact Nat.le_succ _

lemma length_afterIac_le : (afterIac W chars).2.length ≤ chars.length := by
  have hsub (chars : Bytes) : (subnegotiation W chars).2.length ≤ chars.length := by
    cases chars with
    | nil => exact le_rfl
    | cons cmd3 chars =>
      rw [subnegotiation]
      split_ifs with hlinemode hnaws
      · exact (length_linemode_le chars).trans (Nat.le_succ _)
      · simp only [length_drop, length_cons]
        omega
      · exact Nat.le_succ _
  cases chars with
  | nil => exact le_rfl
  | cons cmd2 chars =>
    rw [afterIac]
    split_ifs with hverb hsb
    · simp only [length_drop, length_cons]
      omega
    · exact (hsub chars).trans (Nat.le_succ _)
    · exact Nat.le_succ _

lemma telnetCommandsIn_eq {n : ℕ} {chars : Bytes} (hn : chars.length ≤ n) (W : Session) :
    telnetCommandsIn W n chars = telnetCommands W chars := by
  rw [telnetCommands]
  induction n using Nat.strong_induction_on generalizing W chars with
  | _ n ih =>
    cases chars with
    | nil =>
      cases n with
      | zero | succ n => rfl
    | cons cmd1 chars =>
      obtain ⟨n, rfl⟩ : ∃ m, n = m + 1 := ⟨n - 1, by simp only [length_cons] at hn; omega⟩
      have hlen := length_afterIac_le W chars
      simp only [length_cons] at hn ⊢
      rw [telnetCommandsIn, telnetCommandsIn]
      split_ifs with hiac
      · rfl
      · rw [ih n (by omega) (by omega), ih chars.length (by omega) hlen]

@[simp] lemma telnetCommands_nil : telnetCommands W [] = (W, []) := rfl

lemma telnetCommands_of_ne {cmd1 : Byte} (h : cmd1 ≠ iac) (W : Session) (chars : Bytes) :
    telnetCommands W (cmd1 :: chars) = (W, cmd1 :: chars) := by
  rw [telnetCommands, length_cons, telnetCommandsIn, if_pos h]

lemma telnetCommands_iac : telnetCommands W (iac :: chars) =
      telnetCommands (afterIac W chars).1 (afterIac W chars).2 := by
  rw [telnetCommands, length_cons, telnetCommandsIn, if_neg (not_not.mpr rfl)]
  exact telnetCommandsIn_eq (length_afterIac_le W chars) _

/-- **The loop ends where no telnet command begins.** -/
lemma telnetCommands_stop : (telnetCommands W chars).2.head? ≠ some iac := by
  induction hn : chars.length using Nat.strong_induction_on generalizing W chars with
  | _ n ih =>
    cases chars with
    | nil => simp
    | cons cmd1 chars =>
      by_cases hiac : cmd1 = iac
      · have hlen := length_afterIac_le W chars
        simp only [length_cons] at hn
        rw [hiac, telnetCommands_iac]
        exact ih _ (by omega) _ _ rfl
      · rw [telnetCommands_of_ne hiac]
        intro h
        exact hiac (Option.some.inj h)

/-! ### Keys -/

/-- The keys of `telnet_keys.h`, in the order of the comparisons. -/
inductive Key where
  | f1 | f2 | f3 | f4 | f5 | f6 | f7 | f8 | f9 | f10 | f11 | f12
  | insert | bs1 | bs2 | delete | endKey | end2 | home | home2 | left | right | up | down
  | pgdn | pgup | esc | tab
  deriving DecidableEq, Repr

def Key.bytes : Key → Bytes
  | f1 => [0o33#8, 0o117#8, 0o120#8]
  | f2 => [0o33#8, 0o117#8, 0o121#8]
  | f3 => [0o33#8, 0o117#8, 0o122#8]
  | f4 => [0o33#8, 0o117#8, 0o123#8]
  | f5 => [0o33#8, 0o133#8, 0o61#8, 0o65#8, 0o176#8]
  | f6 => [0o33#8, 0o133#8, 0o61#8, 0o67#8, 0o176#8]
  | f7 => [0o33#8, 0o133#8, 0o61#8, 0o70#8, 0o176#8]
  | f8 => [0o33#8, 0o133#8, 0o61#8, 0o71#8, 0o176#8]
  | f9 => [0o33#8, 0o133#8, 0o62#8, 0o60#8, 0o176#8]
  | f10 => [0o33#8, 0o133#8, 0o62#8, 0o61#8, 0o176#8]
  | f11 => [0o33#8, 0o133#8, 0o62#8, 0o63#8, 0o176#8]
  | f12 => [0o33#8, 0o133#8, 0o62#8, 0o64#8, 0o176#8]
  | insert => [0o33#8, 0o133#8, 0o62#8, 0o176#8]
  | bs1 => [0o10#8]
  | bs2 => [0o177#8]
  | delete => [0o33#8, 0o133#8, 0o63#8, 0o176#8]
  | endKey => [0o33#8, 0o117#8, 0o106#8]
  | end2 => [0o33#8, 0o133#8, 0o64#8, 0o176#8]
  | home => [0o33#8, 0o117#8, 0o110#8]
  | home2 => [0o33#8, 0o133#8, 0o61#8, 0o176#8]
  | left => [0o33#8, 0o133#8, 0o104#8]
  | right => [0o33#8, 0o133#8, 0o103#8]
  | up => [0o33#8, 0o133#8, 0o101#8]
  | down => [0o33#8, 0o133#8, 0o102#8]
  | pgdn => [0o33#8, 0o133#8, 0o66#8, 0o176#8]
  | pgup => [0o33#8, 0o133#8, 0o65#8, 0o176#8]
  | esc => [0o33#8]
  | tab => [0o11#8]

def Key.all : List Key :=
  [f1, f2, f3, f4, f5, f6, f7, f8, f9, f10, f11, f12, insert, bs1, bs2, delete, endKey, end2, home,
    home2, left, right, up, down, pgdn, pgup, esc, tab]

def Key.ofBytes (out : Bytes) : Option Key := Key.all.find? fun k => out = k.bytes

lemma Key.eq_bytes_of_ofBytes {out : Bytes} {k : Key} (h : Key.ofBytes out = some k) :
    out = k.bytes := by
  have := List.find?_some h
  simpa using this

lemma Key.ofBytes_bytes : Key.ofBytes k.bytes = some k := by
  cases k <;> decide +kernel

def keyHeads : Bytes := [8#8, 9#8, 27#8, 127#8]

lemma Key.head_bytes : ∃ c ∈ keyHeads, ∃ rest, k.bytes = c :: rest := by
  cases k <;> exact ⟨_, by decide, _, rfl⟩

lemma Key.ofBytes_of_head {c : Byte} (h : c ∉ keyHeads) (out : Bytes) :
    Key.ofBytes (c :: out) = none := by
  rw [Option.eq_none_iff_forall_ne_some]
  intro k hk
  obtain ⟨c', hc', rest, hrest⟩ := k.head_bytes
  rw [← Key.eq_bytes_of_ofBytes hk] at hrest
  obtain ⟨rfl, -⟩ := List.cons.inj hrest
  exact h hc'

inductive Fault where
  | divisionByZero
  | outOfRange
  deriving DecidableEq, Repr

/-- The conversion to `int`. -/
def toInt (n : ℤ) : ℤ := n.bmod (2 ^ 32)

lemma toInt_eq {n : ℤ} (h : -2 ^ 31 ≤ n) (h' : n < 2 ^ 31) : toInt n = n :=
  Int.bmod_eq_of_le (by norm_num; omega) (by norm_num; omega)

/-- `vt100::cursor_forward` with a number. -/
def cursorForward (n : ℤ) : Bytes := ascii "\x1b[" ++ intText n ++ ascii "C"

/-- `vt100::cursor_back` with a number. -/
def cursorBack (n : ℤ) : Bytes := ascii "\x1b[" ++ intText n ++ ascii "D"

def eraseAtCursor (W : Session) : Except Fault Session := do
  let line := W.currentCommandLine
  let before ← substr .outOfRange line 0 W.curpos
  let after ← substr .outOfRange line (W.curpos + 1) (line.length - W.curpos - 1)
  pure { W with currentCommandLine := before ++ after }

def typeChar (W : Session) (c : Byte) : Session :=
  let line := W.currentCommandLine
  -- the cursor is moved to the line first
  let pos := min W.curpos.toNat line.length
  let line :=
    if W.insertMode then line.take pos ++ c :: line.drop pos
    else if pos = line.length then line ++ [c]
    else line.set pos c
  { W with currentCommandLine := line, curpos := pos + 1 }

section

variable (regexec : Regexec) (svc : Service)

def redraw (W : Session) : List Action :=
  [.write (ascii "\x1b[2K" ++ cursorBack ((promptString svc W).length + W.curpos + 100)),
    prompt svc W]

/-- `TKEY_UP` and `TKEY_DOWN`. -/
def recallHistory (W : Session) (next : ℤ) : Session × List Action :=
  if W.commandHistory = [] then (W, [])
  else
    let idx := W.commandHistory.length + W.commandHistoryPos + next
    let (W, cmd) :=
      if 0 ≤ toInt idx ∧ toInt idx < toInt W.commandHistory.length then
        let line := W.commandHistory.getD (toSize idx) []
        ({ W with
          currentCommandLine := line
          curpos := line.length
          commandHistoryPos := W.commandHistoryPos + next }, line)
      else ({ W with curpos := 0 }, [])
    (W, redraw svc W ++ [.write cmd])

/-- `TKEY_TAB`. -/
def complete (W : Session) : Session × List Action :=
  let names := (svc.commands W).map Prod.fst ++ (svc.children W).map fun i => i.2.name
  let append := getAutoAppendString names W.currentCommandLine
  ({ W with
    currentCommandLine := W.currentCommandLine ++ append
    curpos := W.curpos + append.length }, [.write append])

def onKey (W : Session) : Key → Except Fault (Session × List Action)
  | .f1 | .f2 | .f3 | .f4 | .f5 | .f6 | .f7 | .f8 | .f9 | .f10 | .f11 | .f12
  | .endKey | .end2 | .home | .home2 | .pgdn | .pgup => .ok (W, [])
  | .insert =>
    let W := { W with insertMode := !W.insertMode }
    .ok (W, [.write (if W.insertMode then ascii "\x1b[4h" else ascii "\x1b[4l")])
  | .bs1 | .bs2 =>
    if 0 < W.curpos then
      let W := { W with curpos := W.curpos - 1 }
      if W.curpos < W.currentCommandLine.length then do
        let W ← eraseAtCursor W
        pure (W, [.write (ascii "\x1b[D" ++ ascii "\x1b[P")])
      else .ok (W, [])
    else .ok (W, [])
  | .delete =>
    if W.curpos < W.currentCommandLine.length then do
      let W ← eraseAtCursor W
      pure (W, [.write (ascii "\x1b[P")])
    else .ok (W, [])
  | .left =>
    if 0 < W.curpos then
      if W.width = 0 then .error .divisionByZero
      else .ok ({ W with curpos := W.curpos - 1 },
        [.write (if W.curpos.tmod W.width = 0 then ascii "\x1b[A" ++ cursorForward (W.width - 1)
          else Key.left.bytes)])
    else .ok (W, [])
  | .right =>
    if W.curpos < W.currentCommandLine.length then
      let W := { W with curpos := W.curpos + 1 }
      if W.width = 0 then .error .divisionByZero
      else .ok (W,
        [.write (if W.curpos.tmod W.width = 0 then ascii "\x1b[B" ++ cursorBack (W.width - 1)
          else Key.right.bytes)])
    else .ok (W, [])
  | .up => .ok (recallHistory svc W (-1))
  | .down => .ok (recallHistory svc W 1)
  | .esc => .ok (W, redraw svc W)
  | .tab => .ok (complete svc W)

/-- A read that is no key and begins with `c`. -/
def onChar (W : Session) (c : Byte) : Session × List Action :=
  if c = 3#8 then (W, [.writeAndClose (ascii "^C\r\n")])
  else if c = 9#8 then (W, [])
  else if c = 13#8 then processCommand regexec svc W
  else (typeChar W c, [.write [c]])

def onKeys (W : Session) (out : Bytes) : Except Fault (Session × List Action) :=
  match Key.ofBytes out, out with
  | some k, _ => onKey svc W k
  | none, [] => .ok (W, [])
  | none, c :: _ => .ok (onChar regexec svc W c)

/-- `Service::on_StreamRead` for the session of the socket. -/
def onStreamRead (W : Session) (input : Bytes) : Except Fault (Session × List Action) :=
  onKeys regexec svc (telnetCommands W input).1 (telnetCommands W input).2

variable {regexec svc} {W : Session}

lemma onKeys_bytes (k : Key) : onKeys regexec svc W k.bytes = onKey svc W k := by
  obtain ⟨c, -, rest, hrest⟩ := k.head_bytes
  have hk := k.ofBytes_bytes
  rw [hrest] at hk ⊢
  simp only [onKeys, hk]

lemma onKeys_of_none {c : Byte} {out : Bytes} (h : Key.ofBytes (c :: out) = none) :
    onKeys regexec svc W (c :: out) = .ok (onChar regexec svc W c) := by
  simp only [onKeys, h]

lemma onStreamRead_of_ne {c : Byte} (h : c ≠ iac) (out : Bytes) :
    onStreamRead regexec svc W (c :: out) = onKeys regexec svc W (c :: out) := by
  rw [onStreamRead, telnetCommands_of_ne h]

lemma iac_notMem_keyHeads : iac ∉ keyHeads := by decide

lemma onStreamRead_key (k : Key) : onStreamRead regexec svc W k.bytes = onKey svc W k := by
  obtain ⟨c, hc, rest, hrest⟩ := k.head_bytes
  have hne : c ≠ iac := fun h => iac_notMem_keyHeads (h ▸ hc)
  rw [← @onKeys_bytes regexec, hrest, onStreamRead_of_ne hne]

lemma onStreamRead_char {c : Byte} {out : Bytes} (hc : c ≠ iac)
    (h : Key.ofBytes (c :: out) = none) :
    onStreamRead regexec svc W (c :: out) = .ok (onChar regexec svc W c) := by
  rw [onStreamRead_of_ne hc, onKeys_of_none h]

end

end Megatron.Telnet
