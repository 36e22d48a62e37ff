import Megatron.Library.Runs
import Megatron.Library.Terminal
import Megatron.Telnet.Segmentation

/-!
The line editor of a telnet session together with the terminal of its user. The cursor of the
session is where the terminal displays it (`Synced`); a key or a character that meets the condition
keeps this (`Synced.key`, `Synced.press`), and so does a run (`editor_good`).
-/

namespace Megatron.Telnet

open Library Library.Http Library.NumberText Megatron.Http List Terminal Telnet.Action
open Terminal (Settled settled_of_notMem)

inductive Press where
  | char (c : Byte) (h : isPrint c = true)
  | enter (eol : Bytes) (h : eol = [] ∨ eol = [0#8] ∨ eol = [10#8])
  | key (k : Key)

def Press.bytes : Press → Bytes
  | char c _ => [c]
  | enter eol _ => 13#8 :: eol
  | key k => k.bytes

/-! ### What is shown -/

def Action.text : Action → Bytes
  | .write s | .writeAndClose s => s
  | _ => []

def shown (t : Terminal) (actions : List Action) : Terminal := t.write (actions.flatMap Action.text)

structure View where
  session : Session
  screen : Terminal
  /-- The cell behind the prompt. -/
  home : ℤ

/-- The place that is displayed for the cursor. -/
def View.offset (v : View) : ℤ := v.screen.pos - v.home

/-- The cell behind the prompt after a read: a line that is entered ends with the prompt, and a key
that draws the line again writes the prompt as its second text. -/
def View.homeAfter (v : View) (read : Bytes) (actions : List Action) : ℤ :=
  if read.head? = some 13#8 then (shown v.screen actions).pos
  else if read ∈ [Key.up.bytes, Key.down.bytes, Key.esc.bytes] ∧ actions ≠ [] then
    (shown v.screen (actions.take 2)).pos
  else v.home

section

variable (regexec : Regexec) (svc : Service)

def View.read (v : View) (ps : List Press) : Option View :=
  let input := ps.flatMap Press.bytes
  match onStreamRead regexec svc v.session input with
  | .error _ => none
  | .ok (W, actions) => some ⟨W, shown v.screen actions, v.homeAfter input actions⟩

end

def putChar (insertMode : Bool) (line : Bytes) (pos : ℕ) (c : Byte) : Bytes :=
  if insertMode then line.take pos ++ c :: line.drop pos
  else if pos = line.length then line ++ [c]
  else line.set pos c

def putChars (insertMode : Bool) : Bytes → ℕ → Bytes → Bytes
  | line, _, [] => line
  | line, pos, c :: cs => putChars insertMode (putChar insertMode line pos c) (pos + 1) cs

/-- The positions are in their ranges, and the cursor is where it is displayed. -/
structure Good (before : View) (ps : List Press) (after : View) : Prop where
  curpos : 0 ≤ after.session.curpos ∧
    after.session.curpos ≤ after.session.currentCommandLine.length
  range : after.session.currentCommandLine.length < 2 ^ 31
  history : -(after.session.commandHistory.length : ℤ) ≤ after.session.commandHistoryPos ∧
    after.session.commandHistoryPos ≤ 0
  placed : (∀ p ∈ ps, ∃ c h, p = Press.char c h) →
    ∃ pos : ℕ, before.offset = pos ∧ pos ≤ before.session.currentCommandLine.length ∧
      after.session.currentCommandLine =
        putChars before.session.insertMode before.session.currentCommandLine pos
          (ps.flatMap Press.bytes)

/-- The condition on a press. Arrow keys change the row, and Backspace never does. -/
def Press.Steady (v : View) : Press → Prop
  | .enter _ _ | .key .esc => v.session.curpos = 0
  | .key .bs1 | .key .bs2 => 0 < v.session.curpos → v.screen.column ≠ 0
  | .key .left => 0 < v.session.curpos → v.session.width ≠ 0 ∧
      if v.session.curpos.tmod v.session.width = 0 then
        v.screen.column = 0 ∧ v.session.width = v.screen.width
      else v.screen.column ≠ 0
  | .key .right => v.session.curpos < v.session.currentCommandLine.length → v.session.width ≠ 0 ∧
      if (v.session.curpos + 1).tmod v.session.width = 0 then
        v.screen.column = v.screen.width - 1 ∧ v.session.width = v.screen.width
      else v.screen.column ≠ v.screen.width - 1
  | _ => True

def Steady (svc : Service) (v : View) (ps : List Press) : Prop :=
  v.session.Sized svc ∧ ps.length ≤ 1 ∧ ∀ p ∈ ps, p.Steady v

def Plain (s : Bytes) : Prop := ∀ c ∈ s, isPrint c = true

instance (s : Bytes) : Decidable (Plain s) := inferInstanceAs (Decidable (∀ c ∈ s, _))

structure Node.Plain (N : Node) : Prop where
  name : Telnet.Plain N.name
  children : ∀ i ∈ N.children, Telnet.Plain i.2.name ∧ Telnet.Plain i.2.help
  commands : ∀ i ∈ N.commands,
    Telnet.Plain i.1 ∧ Telnet.Plain i.2.cmdRe ∧ Telnet.Plain i.2.help

structure Service.Plain (svc : Service) : Prop where
  deviceName : Telnet.Plain svc.deviceName
  nodes : ∀ dirs N, svc.root.reach dirs = some N → N.Plain

structure View.Fresh (v : View) : Prop where
  line : v.session.currentCommandLine = []
  commandHistory : v.session.commandHistory = []
  curpos : v.session.curpos = 0
  commandHistoryPos : v.session.commandHistoryPos = 0
  mode : v.screen.mode = .ground
  offset : v.offset = 0

/-! ### Texts without control characters -/

lemma Plain.append {s s' : Bytes} (h : Plain s) (h' : Plain s') : Plain (s ++ s') :=
  forall_mem_append.mpr ⟨h, h'⟩

lemma plain_nil : Plain [] := fun _ hc => absurd hc not_mem_nil

lemma Plain.sublist {s s' : Bytes} (h : Plain s) (hs : s'.Sublist s) : Plain s' :=
  fun c hc => h c (hs.subset hc)

lemma exists_of_mem_getD {α β : Type} {o : Option α} {f : α → List β} {b : β}
    (h : b ∈ (o.map f).getD []) : ∃ a, o = some a ∧ b ∈ f a := by
  cases o with
  | none => exact absurd h not_mem_nil
  | some a => exact ⟨a, rfl, h⟩

lemma Node.exists_of_mem_names {n : Node} {dirs : List Bytes} {s : Bytes}
    (h : s ∈ n.names dirs) : ∃ p N, n.reach p = some N ∧ s = N.name := by
  induction dirs generalizing n with
  | nil => exact ⟨[], n, rfl, mem_singleton.mp h⟩
  | cons dir dirs ih =>
    rcases mem_cons.mp h with rfl | h
    · exact ⟨[], n, rfl, rfl⟩
    · obtain ⟨c, hdir, h⟩ := exists_of_mem_getD h
      obtain ⟨p, N, hN, hs⟩ := ih h
      exact ⟨dir :: p, N, by simpa [Node.reach, hdir] using hN, hs⟩

section

variable {svc : Service} (hsvc : svc.Plain)
include hsvc

lemma Service.Plain.path (dirs : List Bytes) : Telnet.Plain (svc.root.path dirs) := by
  refine forall_mem_intercalate (by decide) fun s hs => ?_
  obtain ⟨p, N, hN, rfl⟩ := Node.exists_of_mem_names (mem_reverse.mp hs)
  exact (hsvc.nodes p N hN).name

lemma Service.Plain.promptString (W : Session) : Telnet.Plain (promptString svc W) :=
  ((hsvc.deviceName.append (by decide)).append (hsvc.path _)).append (by decide)

lemma Service.Plain.children {W : Session} {i : Bytes × Node} (hi : i ∈ svc.children W) :
    Telnet.Plain i.2.name ∧ Telnet.Plain i.2.help := by
  obtain ⟨N, hN, hi⟩ := exists_of_mem_getD hi
  exact (hsvc.nodes _ N hN).children i hi

lemma Service.Plain.commands {W : Session} {i : Bytes × Command} (hi : i ∈ svc.commands W) :
    Telnet.Plain i.1 ∧ Telnet.Plain i.2.cmdRe ∧ Telnet.Plain i.2.help := by
  obtain ⟨N, hN, hi⟩ := exists_of_mem_getD hi
  exact (hsvc.nodes _ N hN).commands i hi

lemma Service.Plain.append (W : Session) (templ : Bytes) : Telnet.Plain (getAutoAppendString
      ((svc.commands W).map Prod.fst ++ (svc.children W).map fun i => i.2.name) templ) := by
  rw [getAutoAppendString]
  split
  · exact plain_nil
  next vm₀ vm hvm =>
    have hmem : vm₀ ∈ (svc.commands W).map Prod.fst ++ (svc.children W).map fun i => i.2.name :=
      mem_of_mem_filter (hvm ▸ mem_cons_self)
    have hname : Telnet.Plain vm₀ := by
      simp only [mem_append, mem_map] at hmem
      rcases hmem with ⟨i, hi, rfl⟩ | ⟨i, hi, rfl⟩
      · exact (hsvc.commands hi).1
      · exact (hsvc.children hi).1
    exact hname.sublist ((take_sublist _ _).trans (drop_sublist _ _))

end

/-! ### A line that is entered -/

lemma Plain.settled {s : Bytes} (hs : Plain s) : Settled s :=
  settled_of_notMem fun h => absurd (hs _ h) (by decide)

lemma settled_bright {s : Bytes} (hs : Plain s) : Settled (bright s) := by
  have h1 : ascii "\x1b[1m" = [27#8, 91#8] ++ numeral 10 1 ++ [109#8] := by decide +kernel
  have h0 : ascii "\x1b[0m" = [27#8, 91#8] ++ numeral 10 0 ++ [109#8] := by decide +kernel
  rw [bright, h1, h0]
  exact ((settled_csi 1 (by decide)).append hs.settled).append
    (settled_csi 0 (by decide))

section

variable (regexec : Regexec) {svc : Service} (hsvc : svc.Plain)
include hsvc

lemma settled_enterCommand (W : Session) {cmd : Bytes} (hcmd : Plain cmd)
    (commands : List (Bytes × Command)) :
    ∀ a ∈ enterCommand regexec svc W cmd commands, Settled a.text := by
  induction commands with
  | nil =>
    refine forall_mem_append.mpr ⟨fun a ha => ?_, forall_mem_singleton.mpr ?_⟩
    · split_ifs at ha
      · rw [mem_singleton.mp ha]
        exact hcmd.settled.append (settled_of_notMem (by decide))
      · exact absurd ha not_mem_nil
    · exact (hsvc.promptString W).settled
  | cons i commands ih =>
    rw [enterCommand]
    split
    · exact forall_mem_singleton.mpr (settled_of_notMem not_mem_nil)
    · exact forall_mem_singleton.mpr (settled_of_notMem not_mem_nil)
    · exact ih

lemma settled_helpPage (W : Session) : ∀ a ∈ helpPage svc W, Settled a.text := by
  have htitle : Plain (if svc.root.path W.defaultNode = [] then ascii "/"
      else svc.root.path W.defaultNode) := by
    split_ifs
    · decide
    · exact hsvc.path W.defaultNode
  have hentry {s help : Bytes} (hs : Plain s) (hhelp : Plain help) :
      Settled (bright s ++ ascii " - " ++ help ++ crlf) :=
    (((settled_bright hs).append (settled_of_notMem (by decide))).append hhelp.settled).append
      (settled_of_notMem (by decide))
  have hfixed {s help : Bytes} (hs : Plain s) (hhelp : 27#8 ∉ help) :
      Settled (bright s ++ help) := (settled_bright hs).append (settled_of_notMem hhelp)
  intro a ha
  simp only [helpPage, mem_append, mem_cons, mem_map, not_mem_nil, or_false] at ha
  rcases ha with ((((rfl | rfl | rfl | rfl) | ⟨i, hi, rfl⟩) | ⟨i, hi, rfl⟩) | rfl)
  · exact ((settled_of_notMem (by decide)).append htitle.settled).append
      (settled_of_notMem (by decide))
  · exact hfixed (by decide) (by decide)
  · exact hfixed (by decide) (by decide)
  · exact hfixed (by decide) (by decide)
  · exact hentry (hsvc.children hi).1 (hsvc.children hi).2
  · exact hentry (hsvc.commands hi).2.1 (hsvc.commands hi).2.2
  · exact (hsvc.promptString W).settled

lemma settled_runLine (W : Session) {cmd : Bytes} (hcmd : Plain cmd) :
    ∀ a ∈ (runLine regexec svc W cmd).2, Settled a.text := by
  have henter := settled_enterCommand regexec hsvc W hcmd (svc.commands W)
  have hprompt (W : Session) : ∀ a ∈ [prompt svc W], Settled a.text :=
    forall_mem_singleton.mpr (hsvc.promptString W).settled
  rw [runLine]
  split
  · exact henter
  · split_ifs
    · exact forall_mem_singleton.mpr (settled_of_notMem (by decide))
    · exact settled_helpPage hsvc W
    · exact henter
    · exact hprompt _
    · exact hprompt _
    · exact henter

end

/-! ### The session alone -/

structure Session.Sound (W : Session) : Prop where
  nonneg : 0 ≤ W.curpos
  le : W.curpos ≤ W.currentCommandLine.length
  history_ge : -(W.commandHistory.length : ℤ) ≤ W.commandHistoryPos
  history_le : W.commandHistoryPos ≤ 0
  line : Plain W.currentCommandLine
  lines : ∀ l ∈ W.commandHistory, Plain l

section

variable {W : Session} (hW : W.Sound)
include hW

lemma Session.Sound.edit {line : Bytes} {pos : ℤ} (hpos : 0 ≤ pos) (hle : pos ≤ line.length)
    (hline : Plain line) : { W with currentCommandLine := line, curpos := pos }.Sound :=
  ⟨hpos, hle, hW.history_ge, hW.history_le, hline, hW.lines⟩

lemma Session.Sound.typeChar_eq (c : Byte) : typeChar W c = { W with
      currentCommandLine := putChar W.insertMode W.currentCommandLine W.curpos.toNat c
      curpos := W.curpos + 1 } := by
  have hle := hW.le
  have hnonneg := hW.nonneg
  have hmin : min W.curpos.toNat W.currentCommandLine.length = W.curpos.toNat :=
    min_eq_left (by omega)
  rw [typeChar, hmin, Int.toNat_of_nonneg hnonneg]
  rfl

lemma Session.Sound.typeChar {c : Byte} (hc : isPrint c = true) : (typeChar W c).Sound := by
  have hle := hW.le
  have hnonneg := hW.nonneg
  have hplain : Plain [c] := forall_mem_singleton.mpr hc
  rw [hW.typeChar_eq, putChar]
  refine hW.edit (by omega) ?_ ?_
  · split_ifs <;> simp <;> omega
  · split_ifs
    · exact (hW.line.sublist (take_sublist _ _)).append
        (hplain.append (hW.line.sublist (drop_sublist _ _)))
    · exact hW.line.append hplain
    · intro c' hc'
      rcases mem_or_eq_of_mem_set hc' with h | rfl
      · exact hW.line c' h
      · exact hc

lemma Session.Sound.eraseAtCursor (pos : ℕ) (hlen : W.currentCommandLine.length < 2 ^ 31)
    (hpos : pos < W.currentCommandLine.length) :
    ∃ W', eraseAtCursor { W with curpos := pos } = .ok W' ∧ W'.Sound ∧ W'.curpos = pos := by
  have hsize : toSize pos = pos := by
    rw [toSize]
    omega
  have hnext : toSize ((pos : ℤ) + 1) = pos + 1 := by
    rw [toSize]
    omega
  have hrest : toSize ((W.currentCommandLine.length : ℤ) - pos - 1) =
      W.currentCommandLine.length - pos - 1 := by
    rw [toSize]
    omega
  refine ⟨{ W with
    currentCommandLine := W.currentCommandLine.take pos ++
      (W.currentCommandLine.drop (pos + 1)).take (W.currentCommandLine.length - pos - 1)
    curpos := pos }, ?_, ?_, rfl⟩
  · simp only [Telnet.eraseAtCursor, substr, toSize_zero, hsize, hnext, hrest, drop_zero,
      Nat.not_lt_zero, if_false, if_neg (Nat.not_lt.mpr (Nat.succ_le_of_lt hpos)), bind,
      Except.bind]
    rfl
  · refine hW.edit (Int.natCast_nonneg _) ?_ ?_
    · rw [length_append, length_take]
      omega
    · exact (hW.line.sublist (take_sublist _ _)).append
        (hW.line.sublist ((take_sublist _ _).trans (drop_sublist _ _)))

end

/-! ### The session and the terminal -/

structure Synced (v : View) : Prop where
  sound : v.session.Sound
  mode : v.screen.mode = .ground
  offset : v.offset = v.session.curpos

lemma View.Fresh.synced {v : View} (h : v.Fresh) : Synced v := by
  refine ⟨⟨?_, ?_, ?_, ?_, ?_, ?_⟩, h.mode, h.offset.trans h.curpos.symm⟩
  all_goals simp [h.curpos, h.line, h.commandHistory, h.commandHistoryPos, plain_nil]

@[simp] lemma shown_nil (t : Terminal) : shown t [] = t := rfl

@[simp] lemma shown_cons (t : Terminal) (a : Action) (actions : List Action) :
    shown t (a :: actions) = shown (t.write a.text) actions := by
  rw [shown, flatMap_cons, write_append]
  rfl

def redrawing : List Key := [.up, .down, .esc]

section

variable {v : View}

variable {W : Session} {actions : List Action} (k : Key)

lemma Key.head_ne : k.bytes.head? ≠ some 13#8 := by
  cases k <;> decide

lemma Key.mem_redrawing :
    k.bytes ∈ [Key.up.bytes, Key.down.bytes, Key.esc.bytes] ↔ k ∈ redrawing := by
  cases k <;> decide

lemma homeAfter_key {k : Key} (hk : k ∉ redrawing) (actions : List Action) :
    v.homeAfter k.bytes actions = v.home := by
  rw [View.homeAfter, if_neg k.head_ne, if_neg fun h => hk (k.mem_redrawing.mp h.1)]

lemma homeAfter_redrawing {k : Key} (hk : k ∈ redrawing) (a : Action) (actions : List Action) :
    v.homeAfter k.bytes (a :: actions) = (shown v.screen ((a :: actions).take 2)).pos := by
  rw [View.homeAfter, if_neg k.head_ne, if_pos ⟨k.mem_redrawing.mpr hk, cons_ne_nil _ _⟩]

lemma homeAfter_nil : v.homeAfter k.bytes [] = v.home := by
  rw [View.homeAfter, if_neg k.head_ne, if_neg fun h => h.2 rfl]

lemma Synced.inPlace (hv : Synced v) (hW : W.Sound) (hmove : shown v.screen actions =
      { v.screen with pos := v.screen.pos + (W.curpos - v.session.curpos) }) :
    Synced ⟨W, shown v.screen actions, v.home⟩ := by
  have hoffset := hv.offset
  rw [View.offset] at hoffset
  refine ⟨hW, ?_, ?_⟩
  · rw [hmove]
    exact hv.mode
  · rw [View.offset, hmove]
    dsimp only
    omega

lemma Synced.redrawn (hv : Synced v) (hW : W.Sound) {before : List Action}
    (hbefore : Settled (before.flatMap text)) {cmd : Bytes} (hcmd : Plain cmd)
    (hcur : W.curpos = cmd.length) :
    Synced ⟨W, shown v.screen (before ++ [.write cmd]), (shown v.screen before).pos⟩ := by
  have hmode : (shown v.screen before).mode = .ground := hbefore _ hv.mode
  have hshown : shown v.screen (before ++ [.write cmd]) =
      { shown v.screen before with pos := (shown v.screen before).pos + cmd.length } := by
    rw [shown, flatMap_append, write_append, flatMap_singleton]
    exact write_print hmode hcmd
  refine ⟨hW, ?_, ?_⟩
  · rw [hshown]
    exact hmode
  · rw [View.offset, hshown, hcur]
    exact add_sub_cancel_left _ _

lemma Synced.restarted (hv : Synced v)
    (hW : W.Sound) (hcur : W.curpos = 0) (hactions : Settled (actions.flatMap text)) :
    Synced ⟨W, shown v.screen actions, (shown v.screen actions).pos⟩ := by
  refine ⟨hW, hactions _ hv.mode, ?_⟩
  rw [View.offset, hcur]
  exact sub_self _

end

lemma cursorBack_natCast (n : ℕ) : cursorBack n = [27#8, 91#8] ++ numeral 10 n ++ [68#8] := by
  simp [cursorBack, intText, ascii]

lemma cursorForward_natCast (n : ℕ) : cursorForward n = [27#8, 91#8] ++ numeral 10 n ++ [67#8] := by
  simp [cursorForward, intText, ascii]

lemma write_erase {t : Terminal} (ht : t.mode = .ground) : t.write (ascii "\x1b[P") = t := by
  change t.write [27#8, 91#8, 80#8] = t
  rw [write_csi_default ht (by decide), move_eq_pos (by decide)]

/-! ### The keys -/

def KeepsSync (svc : Service) (v : View) (k : Key) : Prop :=
  ∃ W actions, onKey svc v.session k = .ok (W, actions) ∧
    Synced ⟨W, shown v.screen actions, v.homeAfter k.bytes actions⟩

section

variable {svc : Service} {v : View} (hv : Synced v)
include hv

lemma Synced.key_inPlace {k : Key} (hk : k ∉ redrawing) {W : Session} {actions : List Action}
    (hkey : onKey svc v.session k = .ok (W, actions)) (hW : W.Sound) {d : ℤ}
    (hcur : W.curpos = v.session.curpos + d)
    (hmove : shown v.screen actions = { v.screen with pos := v.screen.pos + d }) :
    KeepsSync svc v k := by
  refine ⟨W, actions, hkey, ?_⟩
  rw [homeAfter_key hk]
  refine hv.inPlace hW ?_
  rw [hmove, hcur, add_sub_cancel_left]

lemma Synced.key_idle {k : Key} (hk : k ∉ redrawing)
    (hkey : onKey svc v.session k = .ok (v.session, [])) : KeepsSync svc v k :=
  hv.key_inPlace hk hkey hv.sound (add_zero _).symm (by rw [shown_nil, add_zero])

lemma Synced.insert : KeepsSync svc v .insert := by
  have hset : ascii "\x1b[4h" = [27#8, 91#8] ++ numeral 10 4 ++ [104#8] := by decide +kernel
  have hreset : ascii "\x1b[4l" = [27#8, 91#8] ++ numeral 10 4 ++ [108#8] := by decide +kernel
  refine hv.key_inPlace (by decide) rfl ?_ (add_zero _).symm ?_
  · exact ⟨hv.sound.nonneg, hv.sound.le, hv.sound.history_ge, hv.sound.history_le,
      hv.sound.line, hv.sound.lines⟩
  · rw [shown_cons, shown_nil, text, add_zero]
    split_ifs
    · rw [hset, write_csi hv.mode 4 (by decide), move_eq_pos (by decide)]
    · rw [hreset, write_csi hv.mode 4 (by decide), move_eq_pos (by decide)]

lemma Synced.backspace {k : Key} (hk : k = .bs1 ∨ k = .bs2)
    (hlen : v.session.currentCommandLine.length < 2 ^ 31)
    (hcol : 0 < v.session.curpos → v.screen.column ≠ 0) : KeepsSync svc v k := by
  have hle := hv.sound.le
  have hkey : onKey svc v.session k = onKey svc v.session .bs1 := by
    rcases hk with rfl | rfl <;> rfl
  have hredraw : k ∉ redrawing := by rcases hk with rfl | rfl <;> decide
  by_cases hpos : 0 < v.session.curpos
  · obtain ⟨pos, hp⟩ : ∃ pos : ℕ, v.session.curpos - 1 = pos :=
      ⟨(v.session.curpos - 1).toNat, by omega⟩
    have hlt : (pos : ℤ) < v.session.currentCommandLine.length := by omega
    obtain ⟨W, herase, hW, hcur⟩ := hv.sound.eraseAtCursor pos hlen (by omega)
    have hbs : onKey svc v.session k = .ok (W, [.write (ascii "\x1b[D" ++ ascii "\x1b[P")]) := by
      rw [hkey, onKey, if_pos hpos, hp, if_pos hlt, herase]
      rfl
    refine hv.key_inPlace (d := -1) hredraw hbs hW (by omega) ?_
    rw [shown_cons, shown_nil, text, write_append]
    change (v.screen.write [27#8, 91#8, 68#8]).write _ = _
    rw [write_left hv.mode (hcol hpos)]
    exact write_erase hv.mode
  · refine hv.key_idle hredraw ?_
    rw [hkey, onKey, if_neg hpos]

lemma Synced.delete (hlen : v.session.currentCommandLine.length < 2 ^ 31) :
    KeepsSync svc v .delete := by
  have hnonneg := hv.sound.nonneg
  by_cases hpos : v.session.curpos < v.session.currentCommandLine.length
  · obtain ⟨pos, hp⟩ : ∃ pos : ℕ, v.session.curpos = pos := ⟨v.session.curpos.toNat, by omega⟩
    obtain ⟨W, herase, hW, hcur⟩ := hv.sound.eraseAtCursor pos hlen (by omega)
    rw [← hp] at herase
    have hdel : onKey svc v.session .delete = .ok (W, [.write (ascii "\x1b[P")]) := by
      rw [onKey, if_pos hpos]
      change (eraseAtCursor { v.session with curpos := v.session.curpos } >>= _) = _
      rw [herase]
      rfl
    refine hv.key_inPlace (d := 0) (by decide) hdel hW (by omega) ?_
    rw [shown_cons, shown_nil, text, write_erase hv.mode, add_zero]
  · refine hv.key_idle (by decide) ?_
    rw [onKey, if_neg hpos]

lemma Synced.left (hp : (Press.key .left).Steady v) : KeepsSync svc v .left := by
  have hle := hv.sound.le
  by_cases hpos : 0 < v.session.curpos
  · obtain ⟨hwidth, hcol⟩ := hp hpos
    have hkey : onKey svc v.session .left = .ok ({ v.session with curpos := v.session.curpos - 1 },
        [.write (if v.session.curpos.tmod v.session.width = 0 then
          ascii "\x1b[A" ++ cursorForward (v.session.width - 1) else Key.left.bytes)]) := by
      rw [onKey, if_pos hpos, if_neg hwidth]
    refine hv.key_inPlace (d := -1) (by decide) hkey
      (hv.sound.edit (by omega) (by omega) hv.sound.line) rfl ?_
    rw [shown_cons, shown_nil, text]
    split_ifs at hcol ⊢ with hrow
    · -- the cursor goes to the end of the row above
      obtain ⟨n, hn⟩ : ∃ n : ℕ, v.session.width - 1 = n :=
        ⟨v.screen.width - 1, by have := v.screen.width_pos; omega⟩
      rw [hn, cursorForward_natCast]
      exact write_up_forward hv.mode hcol.1 (by omega)
    · exact write_left hv.mode hcol
  · refine hv.key_idle (by decide) ?_
    rw [onKey, if_neg hpos]

lemma Synced.right (hp : (Press.key .right).Steady v) : KeepsSync svc v .right := by
  have hnonneg := hv.sound.nonneg
  by_cases hpos : v.session.curpos < v.session.currentCommandLine.length
  · obtain ⟨hwidth, hcol⟩ := hp hpos
    have hkey : onKey svc v.session .right = .ok ({ v.session with curpos := v.session.curpos + 1 },
        [.write (if (v.session.curpos + 1).tmod v.session.width = 0 then
          ascii "\x1b[B" ++ cursorBack (v.session.width - 1) else Key.right.bytes)]) := by
      rw [onKey, if_pos hpos]
      exact if_neg hwidth
    refine hv.key_inPlace (d := 1) (by decide) hkey
      (hv.sound.edit (by omega) (by omega) hv.sound.line) rfl ?_
    rw [shown_cons, shown_nil, text]
    split_ifs at hcol ⊢ with hrow
    · -- the cursor goes to the beginning of the row below
      obtain ⟨n, hn⟩ : ∃ n : ℕ, v.session.width - 1 = n :=
        ⟨v.screen.width - 1, by have := v.screen.width_pos; omega⟩
      rw [hn, cursorBack_natCast]
      exact write_down_back hv.mode hcol.1 (by omega)
    · exact write_right hv.mode hcol
  · refine hv.key_idle (by decide) ?_
    rw [onKey, if_neg hpos]

section

variable (hsvc : svc.Plain)
include hsvc

omit hv in
lemma settled_redraw {W : Session} (hcur : 0 ≤ W.curpos) :
    Settled ((redraw svc W).flatMap text) := by
  have hclear : ascii "\x1b[2K" = [27#8, 91#8] ++ numeral 10 2 ++ [75#8] := by decide +kernel
  obtain ⟨n, hn⟩ : ∃ n : ℕ, (promptString svc W).length + W.curpos + 100 = n :=
    ⟨((promptString svc W).length + W.curpos + 100).toNat, by omega⟩
  refine Settled.flatMap fun a ha => ?_
  rw [redraw, hn, hclear, cursorBack_natCast] at ha
  rcases mem_cons.mp ha with rfl | ha
  · exact (settled_csi 2 (by decide)).append (settled_csi n (by decide))
  · rw [mem_singleton.mp ha]
    exact (hsvc.promptString W).settled

lemma Synced.esc (hcur : v.session.curpos = 0) : KeepsSync svc v .esc := by
  refine ⟨v.session, redraw svc v.session, rfl, ?_⟩
  rw [redraw, homeAfter_redrawing (by decide)]
  exact hv.restarted hv.sound hcur (settled_redraw hsvc hv.sound.nonneg)

lemma Synced.replaced {k : Key} (hk : k ∈ redrawing) {W : Session} (hW : W.Sound) {cmd : Bytes}
    (hcmd : Plain cmd) (hcur : W.curpos = cmd.length)
    (hkey : onKey svc v.session k = .ok (W, redraw svc W ++ [.write cmd])) : KeepsSync svc v k := by
  refine ⟨W, redraw svc W ++ [.write cmd], hkey, ?_⟩
  have hhome : v.homeAfter k.bytes (redraw svc W ++ [.write cmd]) =
      (shown v.screen (redraw svc W)).pos := by
    rw [redraw, cons_append, homeAfter_redrawing hk]
    rfl
  rw [hhome]
  exact hv.redrawn hW (settled_redraw hsvc hW.nonneg) hcmd hcur

lemma Synced.recall (hsize : v.session.Sized svc) {k : Key} {next : ℤ}
    (hnext : next = -1 ∨ next = 1) (hk : k ∈ redrawing)
    (hkey : onKey svc v.session k = .ok (recallHistory svc v.session next)) :
    KeepsSync svc v k := by
  have hge := hv.sound.history_ge
  have hle := hv.sound.history_le
  have hhistory := hsize.history
  by_cases hempty : v.session.commandHistory = []
  · refine ⟨v.session, [], ?_, ?_⟩
    · rw [hkey, recallHistory, if_pos hempty]
    · rw [homeAfter_nil]
      exact hv
  · rw [recallHistory, if_neg hempty] at hkey
    dsimp only at hkey
    rw [toInt_eq (by omega) (by omega), toInt_eq (by omega) (by omega)] at hkey
    split_ifs at hkey with hidx
    · -- a line of the history
      have hlt : toSize (v.session.commandHistory.length + v.session.commandHistoryPos + next) <
          v.session.commandHistory.length := by
        rw [toSize]
        omega
      have hplain : Plain (v.session.commandHistory.getD
          (toSize (v.session.commandHistory.length + v.session.commandHistoryPos + next)) []) := by
        rw [← getElem_eq_getD (h := hlt) []]
        exact hv.sound.lines _ (getElem_mem _)
      refine hv.replaced hsvc hk ?_ hplain rfl hkey
      exact ⟨Int.natCast_nonneg _, le_rfl, by dsimp only; omega, by dsimp only; omega, hplain,
        hv.sound.lines⟩
    · refine hv.replaced hsvc hk ?_ plain_nil rfl hkey
      exact hv.sound.edit le_rfl (Int.natCast_nonneg _) hv.sound.line

lemma Synced.tab : KeepsSync svc v .tab := by
  have hnonneg := hv.sound.nonneg
  have hle := hv.sound.le
  have happend := hsvc.append v.session v.session.currentCommandLine
  refine hv.key_inPlace (by decide) rfl ?_ rfl ?_
  · refine hv.sound.edit (by omega) ?_ (hv.sound.line.append happend)
    rw [length_append]
    omega
  · rw [shown_cons, shown_nil, text, write_print hv.mode happend]

end

/-- **A key that meets the condition.** -/
lemma Synced.key (hsvc : svc.Plain) (hsize : v.session.Sized svc) {k : Key}
    (hp : (Press.key k).Steady v) : KeepsSync svc v k := by
  have hlen := hsize.inRange.line
  cases k with
  | insert => exact hv.insert
  | bs1 => exact hv.backspace (.inl rfl) hlen hp
  | bs2 => exact hv.backspace (.inr rfl) hlen hp
  | delete => exact hv.delete hlen
  | left => exact hv.left hp
  | right => exact hv.right hp
  | up => exact hv.recall hsvc hsize (.inl rfl) (by decide) rfl
  | down => exact hv.recall hsvc hsize (.inr rfl) (by decide) rfl
  | esc => exact hv.esc hsvc hp
  | tab => exact hv.tab hsvc
  | f1 | f2 | f3 | f4 | f5 | f6 | f7 | f8 | f9 | f10 | f11 | f12 | endKey | end2 | home | home2
  | pgdn | pgup => exact hv.key_idle (by decide) rfl

end

section

variable {regexec : Regexec} {svc : Service} {v : View}

lemma View.read_eq {ps : List Press} {W : Session} {actions : List Action}
    (h : onStreamRead regexec svc v.session (ps.flatMap Press.bytes) = .ok (W, actions)) :
    v.read regexec svc ps =
      some ⟨W, shown v.screen actions, v.homeAfter (ps.flatMap Press.bytes) actions⟩ := by
  rw [View.read, h]

lemma Session.Sized.inRange_read (h : v.session.Sized svc) {ps : List Press} {v' : View}
    (hread : v.read regexec svc ps = some v') : v'.session.currentCommandLine.length < 2 ^ 31 := by
  rw [View.read] at hread
  split at hread
  · cases hread
  next W actions hr =>
    cases hread
    exact (h.inRange_onStreamRead hr).line

lemma onStreamRead_print {c : Byte} (hc : isPrint c = true) (W : Session) :
    onStreamRead regexec svc W [c] = .ok (typeChar W c, [.write [c]]) := by
  have hne : ∀ d ∈ iac :: 3#8 :: 9#8 :: 13#8 :: keyHeads, c ≠ d := by
    have hall : ∀ d ∈ iac :: 3#8 :: 9#8 :: 13#8 :: keyHeads, isPrint d = false := by decide
    rintro d hd rfl
    exact absurd (hall c hd) (by rw [hc]; decide)
  have hheads : c ∉ keyHeads := by
    intro h
    refine hne c ?_ rfl
    simp only [mem_cons, h, or_true]
  rw [onStreamRead_char (hne _ (by decide)) (Key.ofBytes_of_head hheads []), onChar,
    if_neg (hne _ (by decide)), if_neg (hne _ (by decide)), if_neg (hne _ (by decide))]

lemma onStreamRead_enter (eol : Bytes) (W : Session) :
    onStreamRead regexec svc W (13#8 :: eol) = .ok (processCommand regexec svc W) :=
  onStreamRead_char (by decide) (Key.ofBytes_of_head (by decide) eol)

section

variable (hv : Synced v)
include hv

lemma Synced.char {c : Byte} (hc : isPrint c = true) :
    Synced ⟨typeChar v.session c, shown v.screen [.write [c]], v.homeAfter [c] [.write [c]]⟩ := by
  have hhead : c ≠ 13#8 := by
    rintro rfl
    exact absurd hc (by decide)
  have hkeys : [c] ∉ [Key.up.bytes, Key.down.bytes, Key.esc.bytes] := by
    intro hmem
    obtain rfl : c = 27#8 := by simpa [Key.bytes] using hmem
    exact absurd hc (by decide)
  have hhome : v.homeAfter [c] [.write [c]] = v.home := by
    rw [View.homeAfter, List.head?_cons, if_neg (fun h => hhead (Option.some.inj h)),
      if_neg fun h => hkeys h.1]
  rw [hhome]
  refine hv.inPlace (hv.sound.typeChar hc) ?_
  rw [shown_cons, shown_nil, text, write_print hv.mode (forall_mem_singleton.mpr hc),
    hv.sound.typeChar_eq, add_sub_cancel_left]
  rfl

lemma Synced.enter (hsvc : svc.Plain) (hcur : v.session.curpos = 0) (eol : Bytes) :
    Synced ⟨(processCommand regexec svc v.session).1,
      shown v.screen (processCommand regexec svc v.session).2,
      v.homeAfter (13#8 :: eol) (processCommand regexec svc v.session).2⟩ := by
  rw [View.homeAfter, if_pos (List.head?_cons ..), processCommand]
  dsimp only
  set W₁ : Session := { v.session with
    currentCommandLine := []
    commandHistory := v.session.commandHistory ++ [v.session.currentCommandLine]
    commandHistoryPos := 0 } with hW₁
  obtain ⟨dirs, hdirs⟩ := runLine_fst regexec svc W₁ v.session.currentCommandLine
  have hsound : (runLine regexec svc W₁ v.session.currentCommandLine).1.Sound := by
    rw [hdirs]
    refine ⟨hv.sound.nonneg, hcur.le, neg_nonpos.mpr (Int.natCast_nonneg _), le_rfl, plain_nil, ?_⟩
    exact forall_mem_append.mpr
      ⟨hv.sound.lines, forall_mem_singleton.mpr hv.sound.line⟩
  refine hv.restarted hsound (by rwa [hdirs]) (Settled.flatMap ?_)
  exact forall_mem_cons.mpr
    ⟨settled_of_notMem (by decide), settled_runLine regexec hsvc W₁ hv.sound.line⟩

/-- **A press that meets the condition.** -/
lemma Synced.press (hsvc : svc.Plain) (hsize : v.session.Sized svc)
    {p : Press} (hp : p.Steady v) : ∃ v', v.read regexec svc [p] = some v' ∧ Synced v' := by
  have hbytes : [p].flatMap Press.bytes = p.bytes := flatMap_singleton ..
  have hread {W : Session} {actions : List Action}
      (h : onStreamRead regexec svc v.session p.bytes = .ok (W, actions)) :
      v.read regexec svc [p] = some ⟨W, shown v.screen actions, v.homeAfter p.bytes actions⟩ := by
    rw [← hbytes] at h ⊢
    exact View.read_eq h
  cases p with
  | char c hc => exact ⟨_, hread (onStreamRead_print hc _), hv.char hc⟩
  | enter eol h => exact ⟨_, hread (onStreamRead_enter eol _), hv.enter hsvc hp eol⟩
  | key k =>
    obtain ⟨W, actions, hkey, hsync⟩ := hv.key hsvc hsize hp
    exact ⟨_, hread ((onStreamRead_key k).trans hkey), hsync⟩

lemma Synced.read (hsvc : svc.Plain) {ps : List Press} (h : Steady svc v ps) :
    ∃ v', v.read regexec svc ps = some v' ∧ Synced v' ∧ Good v ps v' := by
  obtain ⟨hsize, hone, hps⟩ := h
  have hnonneg := hv.sound.nonneg
  have hle := hv.sound.le
  have hpos : v.offset = v.session.curpos.toNat := by
    rw [hv.offset, Int.toNat_of_nonneg hnonneg]
  have hgood {v' : View} (hread : v.read regexec svc ps = some v') (hv' : Synced v')
      (hplaced : (∀ p ∈ ps, ∃ c h, p = Press.char c h) → v'.session.currentCommandLine =
        putChars v.session.insertMode v.session.currentCommandLine v.session.curpos.toNat
          (ps.flatMap Press.bytes)) : Good v ps v' :=
    ⟨⟨hv'.sound.nonneg, hv'.sound.le⟩, hsize.inRange_read hread,
      ⟨hv'.sound.history_ge, hv'.sound.history_le⟩,
      fun hchars => ⟨_, hpos, by omega, hplaced hchars⟩⟩
  cases ps with
  | nil => exact ⟨v, rfl, hv, hgood rfl hv fun _ => rfl⟩
  | cons p ps =>
    obtain rfl : ps = [] := length_eq_zero_iff.mp (by
      rw [length_cons] at hone
      omega)
    obtain ⟨v', hread, hsync⟩ := hv.press hsvc hsize (hps p mem_cons_self)
    refine ⟨v', hread, hsync, hgood hread hsync fun hchars => ?_⟩
    obtain ⟨c, hc, rfl⟩ := hchars p mem_cons_self
    have hchar : v.read regexec svc [Press.char c hc] =
        some ⟨typeChar v.session c, shown v.screen [.write [c]],
          v.homeAfter [c] [.write [c]]⟩ := View.read_eq (onStreamRead_print hc v.session)
    cases hread.symm.trans hchar
    exact congrArg Session.currentCommandLine (hv.sound.typeChar_eq c)

end

/-- **Every read of a run whose reads meet the condition has the property.** -/
theorem editor_good (hsvc : svc.Plain) (hv : v.Fresh) {reads : List (List Press)}
    (h : Meets (View.read regexec svc) (Steady svc) v reads) {before : List (List Press)}
    {ps : List Press} {after : List (List Press)} (hreads : reads = before ++ ps :: after) :
    ∃ v₁ v₂, run (View.read regexec svc) v before = some v₁ ∧
      v₁.read regexec svc ps = some v₂ ∧ Good v₁ ps v₂ := by
  rw [hreads] at h
  exact h.every_step (fun hv h => Synced.read hv hsvc h) hv.synced

end

def beginning (width : ℤ) : View := ⟨{ width := width }, ⟨80, by decide, .ground, 3⟩, 3⟩

lemma plain_bare : bare.Plain := by
  refine ⟨by decide, fun dirs N hN => ?_⟩
  cases dirs with
  | nil =>
    cases hN
    exact ⟨by decide, fun i hi => absurd hi not_mem_nil, fun i hi => absurd hi not_mem_nil⟩
  | cons dir dirs => cases hN

lemma beginning_fresh (width : ℤ) : (beginning width).Fresh := ⟨rfl, rfl, rfl, rfl, rfl, rfl⟩

def backAndEnter : List (List Press) :=
  [[.char 97#8 (by decide)], [.key .left], [.enter [] (.inl rfl)]]

lemma steady_singleton {v : View} {p : Press}
    (hsize : v.session.Sized bare) (hp : p.Steady v) : Steady bare v [p] := by
  refine ⟨hsize, le_rfl, fun q hq => ?_⟩
  rwa [mem_singleton.mp hq]

lemma meets_backAndEnter :
    Meets (View.read noMatch bare) (Steady bare) (beginning 80) backAndEnter := by
  refine ⟨steady_singleton ⟨by decide, by decide, by decide, by decide, by decide, by decide⟩
    trivial, ?_⟩
  refine ⟨steady_singleton ⟨by decide, by decide, by decide, by decide, by decide, by decide⟩
    fun _ => ⟨by decide, ?_⟩, ?_⟩
  · rw [if_neg (by decide)]
    decide
  · exact ⟨steady_singleton ⟨by decide, by decide, by decide, by decide, by decide, by decide⟩
      (show (_ : ℤ) = 0 by decide), trivial⟩

theorem editor_good_left :
    ∃ v₁ v₂, run (View.read noMatch bare) (beginning 80) (backAndEnter.take 2) = some v₁ ∧
    v₁.read noMatch bare [.enter [] (.inl rfl)] = some v₂ ∧ Good v₁ [.enter [] (.inl rfl)] v₂ :=
  editor_good plain_bare (beginning_fresh 80) meets_backAndEnter rfl

/-- **After Enter or Escape the cursor is not where it is displayed.** -/
theorem editor_fails :
    (∃ v₁ v₂, run (View.read noMatch bare) (beginning 80) [[.char 97#8 (by decide)]] = some v₁ ∧
      v₁.read noMatch bare [.enter [] (.inl rfl)] = some v₂ ∧
      ¬ Good v₁ [.enter [] (.inl rfl)] v₂) ∧ (∃ v₁ v₂, run (View.read noMatch bare) (beginning 80)
        [[.char 97#8 (by decide)], [.key .esc]] = some v₁ ∧
      v₁.read noMatch bare [.char 98#8 (by decide)] = some v₂ ∧
      ¬ Good v₁ [.char 98#8 (by decide)] v₂) ∧
    ∃ v₁, run (View.read noMatch bare) (beginning 0) [[.char 97#8 (by decide)]] = some v₁ ∧
      v₁.read noMatch bare [.key .left] = none := by
  refine ⟨⟨_, _, rfl, rfl, fun h => ?_⟩, ⟨_, _, rfl, rfl, fun h => ?_⟩, ⟨_, rfl, rfl⟩⟩
  · exact absurd h.curpos.2 (by decide)
  · obtain ⟨pos, hpos, -, hline⟩ := h.placed (by
      intro p hp
      exact ⟨_, _, mem_singleton.mp hp⟩)
    have hzero : (pos : ℤ) = 0 := hpos.symm.trans (by decide +kernel)
    obtain rfl : pos = 0 := by omega
    exact absurd hline (by decide +kernel)

end Megatron.Telnet
