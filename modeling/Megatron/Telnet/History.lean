import Megatron.Telnet.Session

/-!
The keys UP and DOWN, which recall the commands of the history. A key that finds a command writes
the prompt and then this command, which is the new line (`recallHistory_found`); over a sequence of
keys the command is counted from the end of the history (`foldl_press`, `history_recalled`).
-/

namespace Megatron.Telnet

open List

inductive Arrow where
  | up
  | down
  deriving DecidableEq, Repr

namespace Arrow

def key : Arrow → Key
  | up => .up
  | down => .down

/-- What is added to the position in the history. -/
def next : Arrow → ℤ
  | up => -1
  | down => 1

/-- How many more times UP is pressed than DOWN. -/
def depth (ks : List Arrow) : ℤ := -(ks.map next).sum

lemma depth_concat (ks : List Arrow) (k : Arrow) : depth (ks ++ [k]) = depth ks - k.next := by
  simp [depth, sub_eq_neg_add]

end Arrow

def press (svc : Service) (W : Session) (k : Arrow) : Session := (recallHistory svc W k.next).1

variable {regexec : Regexec} {svc : Service} {W : Session} {ks : List Arrow} {k : Arrow}

lemma onStreamRead_arrow : onStreamRead regexec svc W k.key.bytes =
    .ok (recallHistory svc W k.next) := by
  rw [onStreamRead_key]
  cases k with
  | up | down => rfl

/-- A key that finds a command. -/
lemma recallHistory_found (svc : Service) {d : ℤ} (hpos : W.commandHistoryPos + k.next = -d)
    (hd : 1 ≤ d) (hlen : d ≤ W.commandHistory.length) (hsize : W.commandHistory.length < 2 ^ 31) :
    let line := W.commandHistory.getD (W.commandHistory.length - d).toNat []
    let W' := { W with
      currentCommandLine := line, curpos := line.length, commandHistoryPos := -d }
    recallHistory svc W k.next = (W', redraw svc W' ++ [.write line]) := by
  have hne : W.commandHistory ≠ [] := by
    intro h
    rw [h, length_nil] at hlen
    omega
  have hidx : (W.commandHistory.length : ℤ) + W.commandHistoryPos + k.next =
      W.commandHistory.length - d := by omega
  have hindex : toSize (W.commandHistory.length - d) = (W.commandHistory.length - d).toNat := by
    rw [toSize]
    omega
  simp only [recallHistory, if_neg hne, hidx, hpos, hindex]
  rw [toInt_eq (by omega) (by omega), toInt_eq (by omega) (by omega), if_pos (by omega)]

/-- There are no commands, or the keys that are pressed find a command each. The size of the
history can be held by an `int`. -/
def Finds (W : Session) (ks : List Arrow) : Prop :=
  W.commandHistory.length < 2 ^ 31 ∧ (W.commandHistory = [] ∨
    ∀ p, p <+: ks → p ≠ [] → 1 ≤ Arrow.depth p ∧ Arrow.depth p ≤ W.commandHistory.length)

lemma Finds.of_append {ks' : List Arrow} (h : Finds W (ks ++ ks')) : Finds W ks :=
  ⟨h.1, h.2.imp_right fun hall p hp => hall p (hp.trans (prefix_append ks ks'))⟩

lemma press_nil (svc : Service) (h : W.commandHistory = []) (k : Arrow) :
    recallHistory svc W k.next = (W, []) := by
  rw [recallHistory, if_pos h]

lemma foldl_press_nil (svc : Service) (h : W.commandHistory = []) (ks : List Arrow) :
    ks.foldl (press svc) W = W := by
  induction ks with
  | nil => rfl
  | cons k ks ih => rw [foldl_cons, press, press_nil svc h, ih]

lemma foldl_press (svc : Service) (hpos : W.commandHistoryPos = 0) (hks : Finds W ks)
    (hne : W.commandHistory ≠ []) :
    (ks.foldl (press svc) W).commandHistory = W.commandHistory ∧
      (ks.foldl (press svc) W).commandHistoryPos = -Arrow.depth ks := by
  induction ks using List.reverseRecOn with
  | nil => exact ⟨rfl, hpos⟩
  | append_singleton ks k ih =>
    obtain ⟨hhist, hpos'⟩ := ih hks.of_append
    obtain ⟨hd, hlen⟩ := hks.2.resolve_left hne _ prefix_rfl (by simp)
    rw [← hhist] at hlen
    rw [foldl_concat, press, recallHistory_found svc (by rw [hpos', Arrow.depth_concat]; omega) hd
      hlen (by rw [hhist]; exact hks.1)]
    exact ⟨hhist, rfl⟩

/-- What one key does: it writes the prompt and after it the line, which is the `d`-th latest
command; without commands it does nothing. -/
def Recalls (svc : Service) (history : List Bytes) (d : ℤ) (W W' : Session)
    (actions : List Action) : Prop :=
  if history = [] then W' = W ∧ actions = []
  else actions = redraw svc W' ++ [.write W'.currentCommandLine] ∧
    W'.currentCommandLine = history.getD (history.length - d).toNat []

/-- **History.** As long as every key finds a command, the text after the prompt is the line. -/
theorem history_recalled (regexec : Regexec) (svc : Service) (W : Session) (ks : List Arrow)
    (hpos : W.commandHistoryPos = 0) (hks : Finds W ks) :
    ∀ before k after, ks = before ++ k :: after →
      ∃ actions, onStreamRead regexec svc (before.foldl (press svc) W) k.key.bytes =
          .ok ((before ++ [k]).foldl (press svc) W, actions) ∧
        Recalls svc W.commandHistory (Arrow.depth (before ++ [k])) (before.foldl (press svc) W)
          ((before ++ [k]).foldl (press svc) W) actions := by
  rintro before k after rfl
  rw [onStreamRead_arrow, foldl_concat, press]
  by_cases hempty : W.commandHistory = []
  · rw [foldl_press_nil svc hempty, press_nil svc hempty]
    exact ⟨_, rfl, by rw [Recalls, if_pos hempty]; exact ⟨rfl, rfl⟩⟩
  · obtain ⟨hhist, hpos'⟩ := foldl_press svc hpos hks.of_append hempty
    obtain ⟨hd, hlen⟩ := hks.2.resolve_left hempty (before ++ [k]) ⟨after, by simp⟩ (by simp)
    rw [← hhist] at hlen
    have hfound := recallHistory_found svc (k := k) (by rw [hpos', Arrow.depth_concat]; omega) hd
      hlen (by rw [hhist]; exact hks.1)
    rw [hfound]
    refine ⟨_, rfl, ?_⟩
    rw [Recalls, if_neg hempty, hhist]
    exact ⟨rfl, rfl⟩

/-- A session with the commands `a` and `b`. -/
def entered : Session := { commandHistory := [[97#8], [98#8]] }

def noService : Service := ⟨[], Node.top⟩

theorem history_up_up : ∃ actions, onStreamRead (fun _ _ => .ok none) noService
    ([.up].foldl (press noService) entered) Key.up.bytes =
      .ok ([.up, .up].foldl (press noService) entered, actions) ∧
    Recalls noService [[97#8], [98#8]] 2 ([.up].foldl (press noService) entered)
      ([.up, .up].foldl (press noService) entered) actions := by
  have hinits : ∀ p ∈ [Arrow.up, .up].inits, p ≠ [] →
      1 ≤ Arrow.depth p ∧ Arrow.depth p ≤ entered.commandHistory.length := by decide
  have hks : Finds entered [.up, .up] :=
    ⟨by decide, .inr fun p hp => hinits p ((mem_inits _ _).mpr hp)⟩
  exact history_recalled (fun _ _ => .ok none) noService entered [.up, .up] rfl hks [.up] .up [] rfl

/-- **DOWN after UP leaves an empty line on the screen.** -/
theorem history_down_fails : ∃ W actions, onStreamRead (fun _ _ => .ok none) noService
    (press noService entered .up) Key.down.bytes = .ok (W, actions) ∧
    actions = redraw noService W ++ [.write []] ∧ W.currentCommandLine = [98#8] :=
  ⟨_, _, rfl, by decide +kernel, by decide +kernel⟩

end Megatron.Telnet
