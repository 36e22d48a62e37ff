import Megatron.Corelib.Streams
import Megatron.Telnet.Commands

/-!
The registration of commands (`on_RegisterCommand`), and the paths of the directories.
-/

namespace Megatron.Telnet

open Library Library.Http Megatron.Http List

inductive RegisterError where
  /-- `cannot find subdir '%s'`. -/
  | noSubdir (dir : Bytes)
  | thrown (e : Exn)

namespace Node

def addChildNode (n : Node) (dir : Bytes) (c : Node) : Node :=
  if (n.children.lookup dir).isSome then n
  else { n with children := insertKey n.children dir c }

def addCommand (n : Node) (cmd : Bytes) (c : Command) : Node :=
  { n with commands := insertKey (n.commands.filter fun i => i.1 ≠ cmd) cmd c }

/-- The loop over `getSubDir`. -/
def update (f : Node → Except RegisterError Node) : List Bytes → Node → Except RegisterError Node
  | [], n => f n
  | dir :: dirs, n =>
    match n.getSubDir dir with
    | none => .error (.noSubdir dir)
    | some c => do
      let c ← update f dirs c
      pure { n with children := n.children.map fun i => if i.1 = dir then (i.1, c) else i }

/-- The end of `registerDirectory`. -/
def addDirectoryTo (name help : Bytes) (n : Node) : Except RegisterError Node :=
  .ok (n.addChildNode name ⟨name, help, [], []⟩)

def registerDirectory (root : Node) (d : List Bytes) (name help : Bytes) :
    Except RegisterError Node := root.update (addDirectoryTo name help) d

/-- The end of `registerCommand`. -/
def addCommandTo (cmd help : Bytes) (dst : RouteT) (n : Node) : Except RegisterError Node :=
  match dst.popBack with
  | .error e => .error (.thrown e)
  | .ok (_, r) => .ok (n.addCommand cmd ⟨r, cmd, help⟩)

def registerCommand (root : Node) (d : List Bytes) (cmd help : Bytes) (dst : RouteT) :
    Except RegisterError Node := root.update (addCommandTo cmd help dst) d

/-- The loop of `on_RegisterCommand`. -/
def registerDirectories (root : Node) (d : List Bytes) : Except RegisterError (List Bytes × Node) :=
  d.foldlM (fun s name => do
    let root ← s.2.registerDirectory s.1 name (ascii "Directory")
    pure (s.1 ++ [name], root)) ([], root)

end Node

/-- The event `RegisterCommand`; `hop` is pushed by `sendEvent`. -/
structure RegisterCommand where
  directory : Bytes
  cmd : Bytes
  help : Bytes
  requester : RouteT
  hop : Route

namespace RegisterCommand

def dirs (e : RegisterCommand) : List Bytes := splitStringDQ (ascii "/") e.directory

/-- The command of the requester. -/
def command (e : RegisterCommand) : Command := ⟨e.requester, e.cmd, e.help⟩

end RegisterCommand

def onRegisterCommand (root : Node) (e : RegisterCommand) : Except RegisterError Node := do
  let (_, root) ← root.registerDirectories e.dirs
  root.registerCommand e.dirs e.cmd e.help (e.requester.pushBack e.hop)

def registerAll (es : List RegisterCommand) : Except RegisterError Node :=
  es.foldlM onRegisterCommand Node.top

/-! ### What is found in the tree -/

section

variable {α : Type} {m : List (Bytes × α)} {k : Bytes}

lemma lookup_cons_eq (k : Bytes) (v : α) (m : List (Bytes × α)) (x : Bytes) :
    ((k, v) :: m).lookup x = if x = k then some v else m.lookup x := by
  rw [lookup_cons]
  split_ifs with hx
  · rw [hx, beq_self_eq_true]
  · rw [beq_false_of_ne hx]

lemma lookup_insertKey (h : m.lookup k = none) (v : α) (x : Bytes) :
    (insertKey m k v).lookup x = if x = k then some v else m.lookup x := by
  induction m with
  | nil => exact lookup_cons_eq k v [] x
  | cons y m ih =>
    obtain ⟨y, w⟩ := y
    rw [lookup_cons_eq] at h ⊢
    split_ifs at h with hky
    rw [insertKey, insertBy]
    by_cases hlt : lexLt (Streamable.intLt false) k y = true
    · rw [if_pos hlt, lookup_cons_eq, lookup_cons_eq]
    by_cases hgt : lexLt (Streamable.intLt false) y k = true
    · have hrest := ih h
      rw [insertKey] at hrest
      rw [if_neg hlt, if_pos hgt, lookup_cons_eq, hrest]
      by_cases hx : x = k
      · rw [if_pos hx, if_pos hx, if_neg (hx ▸ hky)]
      · rw [if_neg hx, if_neg hx]
    · exact absurd ((lexLt_strictTotal (Streamable.intLt_strictTotal 8 false)).eq_of_not_lt
        (Bool.eq_false_iff.mpr hlt) (Bool.eq_false_iff.mpr hgt)) hky

lemma lookup_filter_ne (m : List (Bytes × α)) (k x : Bytes) :
    (m.filter fun i => i.1 ≠ k).lookup x = if x = k then none else m.lookup x := by
  induction m with
  | nil => exact (ite_self none).symm
  | cons y m ih =>
    rw [lookup_cons_eq]
    by_cases hy : y.1 = k
    · rw [filter_cons_of_neg (by simpa using hy), ih]
      grind
    · rw [filter_cons_of_pos (by simpa using hy), lookup_cons_eq, ih]
      grind

lemma lookup_replace (m : List (Bytes × α)) (k : Bytes) (v : α) (x : Bytes) :
    (m.map fun i => if i.1 = k then (i.1, v) else i).lookup x =
      if x = k then (m.lookup x).map fun _ => v else m.lookup x := by
  induction m with
  | nil => exact (ite_self none).symm
  | cons y m ih =>
    rw [map_cons, lookup_cons_eq]
    by_cases hy : y.1 = k
    · rw [if_pos hy, lookup_cons_eq, ih]
      grind
    · rw [if_neg hy, lookup_cons_eq, ih]
      grind

end

/-- The name of a directory and its commands. -/
abbrev Label := Bytes × (Bytes → Option Command)

namespace Node

def label (root : Node) (dirs : List Bytes) : Option Label :=
  (root.reach dirs).map fun n => (n.name, fun cmd => n.commands.lookup cmd)

variable {root n n' : Node} {d r : List Bytes}

lemma label_append (h : root.reach d = some n) (rest : List Bytes) :
    root.label (d ++ rest) = n.label rest := by
  induction d generalizing root with
  | nil =>
    cases h
    rfl
  | cons dir d ih =>
    obtain ⟨c, hc, h⟩ := Option.bind_eq_some_iff.mp h
    rw [← ih h, cons_append, label, reach, hc]
    rfl

lemma exists_update {f : Node → Except RegisterError Node} {l : Option Label}
    (hreach : root.reach d = some n) (hf : f n = .ok n')
    (hlabel : n'.label = Function.update n.label r l) : ∃ root', root.update f d = .ok root' ∧
      root'.label = Function.update root.label (d ++ r) l := by
  induction d generalizing root with
  | nil =>
    cases hreach
    exact ⟨n', hf, hlabel⟩
  | cons dir d ih =>
    obtain ⟨c, hc, hreach⟩ := Option.bind_eq_some_iff.mp hreach
    obtain ⟨c', hc', hlabel'⟩ := ih hreach
    have hsub := lookup_replace root.children dir c'
    refine ⟨_, by rw [update, hc]; exact congrArg (· >>= _) hc', funext fun dirs => ?_⟩
    cases dirs with
    | nil => rfl
    | cons x dirs =>
      by_cases hx : x = dir
      · subst hx
        have hroot : root.label (x :: dirs) = c.label dirs :=
          label_append (d := [x]) (by rw [reach, hc]; rfl) dirs
        rw [getSubDir] at hc
        rw [label, reach, getSubDir, hsub, if_pos rfl, hc]
        show c'.label dirs = _
        simp only [hlabel', hroot, Function.update_apply, cons_append, List.cons.injEq, true_and]
      · rw [label, reach, getSubDir, hsub, if_neg hx, cons_append,
          Function.update_of_ne fun h => hx (List.cons.inj h).1]
        rfl

lemma label_addChildNode (n : Node) (name help : Bytes) :
    (n.addChildNode name ⟨name, help, [], []⟩).label = Function.update n.label [name]
      (some ((n.label [name]).getD (name, fun _ => none))) := by
  funext rest
  rw [addChildNode]
  cases hc : n.children.lookup name with
  | some c =>
    have hself : n.label [name] = some ((n.label [name]).getD (name, fun _ => none)) := by
      rw [label, reach, getSubDir, hc]
      rfl
    rw [Option.isSome_some, if_pos rfl, ← hself, Function.update_eq_self]
  | none =>
    rw [Option.isSome_none, if_neg Bool.false_ne_true]
    cases rest with
    | nil => rfl
    | cons x rest =>
      rw [Function.update_apply, label, reach, getSubDir, lookup_insertKey hc]
      by_cases hx : x = name
      · subst hx
        cases rest with
        | nil => simp [label, reach, getSubDir, hc]
        | cons y rest => simp [label, reach, getSubDir, hc]
      · rw [if_neg hx, if_neg fun h => hx (List.cons.inj h).1]
        rfl

lemma label_addCommand (n : Node) (cmd : Bytes) (c : Command) :
    (n.addCommand cmd c).label = Function.update n.label []
      (some (n.name, Function.update (fun x => n.commands.lookup x) cmd (some c))) := by
  funext rest
  cases rest with
  | cons x rest => rfl
  | nil =>
    have hnone : (n.commands.filter fun i => i.1 ≠ cmd).lookup cmd = none := by
      rw [lookup_filter_ne, if_pos rfl]
    have hlookup (x : Bytes) : (n.addCommand cmd c).commands.lookup x =
        Function.update (fun x => n.commands.lookup x) cmd (some c) x := by
      rw [addCommand, lookup_insertKey hnone, lookup_filter_ne, Function.update_apply]
      split_ifs <;> rfl
    rw [Function.update_self, label, reach, Option.map_some, funext hlookup]
    rfl

/-- The directories on the way to `d` exist. -/
def withDirectories (L : List Bytes → Option Label) (d : List Bytes) :
    List Bytes → Option Label := fun dirs =>
  if dirs <+: d then some ((L dirs).getD (dirs.getLastD [], fun _ => none)) else L dirs

lemma exists_registerDirectories (root : Node) (d : List Bytes) : ∃ root',
    root.registerDirectories d = .ok (d, root') ∧ root'.label = withDirectories root.label d := by
  induction d using List.reverseRecOn with
  | nil =>
    refine ⟨root, rfl, funext fun dirs => ?_⟩
    cases dirs with
    | nil => rfl
    | cons x dirs => rw [withDirectories, if_neg (by simp)]
  | append_singleton d name ih =>
    obtain ⟨root₁, hok₁, hlabel₁⟩ := ih
    obtain ⟨n, hn⟩ : ∃ n, root₁.reach d = some n := by
      have hd : root₁.label d = _ := congrFun hlabel₁ d
      rw [withDirectories, if_pos prefix_rfl] at hd
      obtain ⟨n, hn, -⟩ := Option.map_eq_some_iff.mp hd
      exact ⟨n, hn⟩
    obtain ⟨root₂, hok₂, hlabel₂⟩ := exists_update (f := addDirectoryTo name (ascii "Directory"))
      hn rfl (label_addChildNode n name _)
    refine ⟨root₂, ?_, ?_⟩
    · rw [registerDirectories] at hok₁ ⊢
      rw [foldlM_append, hok₁]
      simp [bind, Except.bind, registerDirectory, hok₂, pure, Except.pure]
    · funext dirs
      rw [hlabel₂, ← label_append hn, hlabel₁, Function.update_apply]
      simp only [withDirectories, prefix_concat_iff]
      split_ifs <;> simp_all

end Node

/-! ### Registrations -/

/-- The command of the last registration under a name. -/
def lastCommand (es : List RegisterCommand) (dirs : List Bytes) (cmd : Bytes) : Option Command :=
  ((es.filter fun e => e.dirs = dirs ∧ e.cmd = cmd).getLast?).map RegisterCommand.command

/-- What the registrations leave at a directory. -/
def registered (es : List RegisterCommand) (dirs : List Bytes) : Option Label :=
  if dirs = [] ∨ ∃ e ∈ es, dirs <+: e.dirs then some (dirs.getLastD [], lastCommand es dirs)
  else none

variable {es : List RegisterCommand}

lemma lastCommand_concat (e : RegisterCommand) (dirs : List Bytes) :
    lastCommand (es ++ [e]) dirs = if dirs = e.dirs then
      Function.update (lastCommand es dirs) e.cmd (some e.command) else lastCommand es dirs := by
  funext cmd
  rw [lastCommand, filter_append]
  by_cases hdirs : dirs = e.dirs
  · by_cases hcmd : cmd = e.cmd
    · simp [hdirs, hcmd]
    · simp [hdirs, Ne.symm hcmd, lastCommand, Function.update_of_ne hcmd]
  · simp [hdirs, Ne.symm hdirs, lastCommand]

lemma lastCommand_eq_none {dirs : List Bytes} (h : ¬ ∃ e ∈ es, dirs <+: e.dirs) :
    lastCommand es dirs = fun _ => none := by
  funext cmd
  have hfilter : es.filter (fun e => e.dirs = dirs ∧ e.cmd = cmd) = [] :=
    filter_eq_nil_iff.mpr fun e he heq => h ⟨e, he, (of_decide_eq_true heq).1 ▸ prefix_rfl⟩
  rw [lastCommand, hfilter]
  rfl

lemma withDirectories_registered (d : List Bytes) (dirs : List Bytes) :
    Node.withDirectories (registered es) d dirs = if dirs = [] ∨ (∃ e ∈ es, dirs <+: e.dirs) ∨
    dirs <+: d then some (dirs.getLastD [], lastCommand es dirs) else none := by
  by_cases h : dirs = [] ∨ ∃ e ∈ es, dirs <+: e.dirs
  · simp [Node.withDirectories, registered, h, ← or_assoc]
  · simp [Node.withDirectories, registered, h, ← or_assoc,
      lastCommand_eq_none fun he => h (.inr he)]

lemma exists_registerAll (es : List RegisterCommand) :
    ∃ root, registerAll es = .ok root ∧ root.label = registered es := by
  induction es using List.reverseRecOn with
  | nil =>
    refine ⟨Node.top, rfl, funext fun dirs => ?_⟩
    cases dirs with
    | nil => rfl
    | cons x dirs => simp [registered, Node.label, Node.reach, Node.getSubDir, Node.top]
  | append_singleton es e ih =>
    obtain ⟨root, hok, hlabel⟩ := ih
    obtain ⟨root₁, hok₁, hlabel₁⟩ := root.exists_registerDirectories e.dirs
    rw [hlabel] at hlabel₁
    obtain ⟨n, hn, hself⟩ : ∃ n, root₁.reach e.dirs = some n ∧
        (n.name, fun x => n.commands.lookup x) = (e.dirs.getLastD [], lastCommand es e.dirs) := by
      have hd := congrFun hlabel₁ e.dirs
      rw [withDirectories_registered, if_pos (.inr (.inr prefix_rfl))] at hd
      exact Option.map_eq_some_iff.mp hd
    obtain ⟨hname, hcommands⟩ := Prod.mk.inj hself
    have hadd : Node.addCommandTo e.cmd e.help (e.requester.pushBack e.hop) n =
        .ok (n.addCommand e.cmd e.command) := by
      rw [Node.addCommandTo, RouteT.popBack_pushBack]
      rfl
    obtain ⟨root₂, hok₂, hlabel₂⟩ := Node.exists_update hn hadd (Node.label_addCommand n _ _)
    refine ⟨root₂, ?_, funext fun dirs => ?_⟩
    · rw [registerAll, foldlM_append, ← registerAll, hok]
      simp [bind, Except.bind, onRegisterCommand, hok₁, Node.registerCommand, hok₂, pure,
        Except.pure]
    · rw [hlabel₂, append_nil, Function.update_apply, hname, hcommands, hlabel₁,
        withDirectories_registered, registered, lastCommand_concat]
      by_cases hdirs : dirs = e.dirs
      · simp [hdirs]
      · simp [hdirs, or_and_right, exists_or]

/-- **The command tree.** Under every name the command of the last registration is found. -/
theorem commands_registered (es : List RegisterCommand) : ∃ root, registerAll es = .ok root ∧
    ∀ dirs, ((root.reach dirs).isSome ↔ dirs = [] ∨ ∃ e ∈ es, dirs <+: e.dirs) ∧
    ∀ cmd, ((root.reach dirs).bind fun n => n.commands.lookup cmd) = lastCommand es dirs cmd := by
  obtain ⟨root, hok, hlabel⟩ := exists_registerAll es
  refine ⟨root, hok, fun dirs => ?_⟩
  have hdirs := congrFun hlabel dirs
  rw [registered, Node.label] at hdirs
  split_ifs at hdirs with h
  · obtain ⟨n, hn, hlabel⟩ := Option.map_eq_some_iff.mp hdirs
    rw [hn]
    exact ⟨iff_of_true rfl h, congrFun (Prod.mk.inj hlabel).2⟩
  · rw [Option.map_eq_none_iff.mp hdirs, lastCommand_eq_none fun he => h (.inr he)]
    exact ⟨iff_of_false Bool.false_ne_true h, fun _ => rfl⟩

/-! ### Paths -/

section

variable {root : Node} {dirs : List Bytes}

lemma names_eq (h : ∀ p ≠ [], p <+: dirs → ∃ l, root.label p = some l ∧ l.1 = p.getLastD []) :
    root.names dirs = root.name :: dirs := by
  induction dirs generalizing root with
  | nil => rfl
  | cons dir dirs ih =>
    obtain ⟨l, hl, hname⟩ := h [dir] (cons_ne_nil _ _) (by simp)
    obtain ⟨c, hc, rfl⟩ := Option.map_eq_some_iff.mp hl
    obtain ⟨c', hsub, hc'⟩ := Option.bind_eq_some_iff.mp hc
    cases hc'
    rw [Node.names, hsub, Option.map_some, Option.getD_some, ih]
    · exact congrArg (root.name :: · :: dirs) hname
    · intro p hne hp
      obtain ⟨l, hl, hname⟩ := h (dir :: p) (cons_ne_nil _ _)
        (cons_prefix_cons.mpr ⟨rfl, hp⟩)
      refine ⟨l, (Node.label_append hc p).symm.trans hl, hname.trans ?_⟩
      cases p with
      | nil => exact absurd rfl hne
      | cons x p => rfl

/-- The path leads to the directory, and to no other. -/
structure PathRight (root : Node) (dirs : List Bytes) : Prop where
  split : splitStringDQ (ascii "/") (root.path dirs) = dirs
  unique : ∀ dirs', (root.reach dirs').isSome → root.path dirs' = root.path dirs → dirs' = dirs
  back : root.reach (splitStringDQ (ascii "/") (root.path dirs)) = root.reach dirs

lemma of_mem_splitStringDQ {seps src z : Bytes} (h : z ∈ splitStringDQ seps src) :
    z ≠ [] ∧ ∀ c ∈ z, c ∉ seps := by
  obtain ⟨hpart, hne⟩ := mem_splitString.mp h
  exact ⟨hne,
    fun c hc => of_decide_eq_false (exists_part_iff.mp ⟨z, hpart, hc⟩).2⟩

lemma split_path (hroot : registerAll es = .ok root) (hdirs : (root.reach dirs).isSome) :
    splitStringDQ (ascii "/") (root.path dirs) = dirs.reverse := by
  obtain ⟨root, hok, hlabel⟩ := exists_registerAll es
  cases hok.symm.trans hroot
  have hD : dirs = [] ∨ ∃ e ∈ es, dirs <+: e.dirs := by
    by_contra hD
    have hnone := congrFun hlabel dirs
    rw [registered, if_neg hD, Node.label, Option.map_eq_none_iff] at hnone
    exact absurd hdirs (by simp [hnone])
  have hway {p : List Bytes} (hp : p <+: dirs) :
      root.label p = some (p.getLastD [], lastCommand es p) := by
    rw [hlabel, registered, if_pos]
    rcases hD with rfl | ⟨e, he, hpre⟩
    · exact .inl (prefix_nil.mp hp)
    · exact .inr ⟨e, he, hp.trans hpre⟩
  have hparts (z : Bytes) (hz : z ∈ dirs) : z ≠ [] ∧ ∀ c ∈ z, c ∉ ascii "/" := by
    rcases hD with rfl | ⟨e, he, hpre⟩
    · exact absurd hz not_mem_nil
    · exact of_mem_splitStringDQ (hpre.subset hz)
  have hname : root.name = [] := (Prod.mk.inj (Option.some.inj (hway nil_prefix))).1
  rw [Node.path, names_eq fun p _ hp => ⟨_, hway hp, rfl⟩, hname, reverse_cons, splitStringDQ,
    splitString_eq]
  have hslash : ascii "/" = [47#8] := by decide +kernel
  simp only [hslash, mem_singleton] at hparts ⊢
  have hsplit : List.splitOnP (fun c => decide (c = 47#8))
      (List.intercalate [47#8] (dirs.reverse ++ [[]])) = dirs.reverse ++ [[]] := by
    refine splitOn_intercalate _ (fun z hz h => ?_) (by simp)
    rcases mem_append.mp hz with hz | hz
    · exact (hparts z (mem_reverse.mp hz)).2 _ h rfl
    · rw [mem_singleton.mp hz] at h
      exact not_mem_nil h
  rw [hsplit, filter_append,
    filter_eq_self.mpr fun z hz => decide_eq_true (hparts z (mem_reverse.mp hz)).1]
  simp

/-- **Paths** are right if the names read the same from both ends. -/
theorem path_right_iff (root : { root : Node // ∃ es, registerAll es = .ok root })
    (dirs : { dirs : List Bytes // (root.1.reach dirs).isSome }) :
    PathRight root.1 dirs.1 ↔ dirs.1.reverse = dirs.1 := by
  obtain ⟨⟨root, es, hroot⟩, dirs, hdirs⟩ := root, dirs
  have hsplit := split_path hroot hdirs
  refine ⟨fun h => hsplit.symm.trans h.split, fun h => ?_⟩
  refine ⟨hsplit.trans h, fun dirs' hdirs' hpath => ?_, by rw [hsplit, h]⟩
  have hsplit' := split_path hroot hdirs'
  rw [hpath, hsplit] at hsplit'
  exact (reverse_injective hsplit').symm

/-- The path of `a/b` leads to `b/a`. -/
theorem path_wrong : ∃ root,
    registerAll [⟨ascii "a/b", [], [], [], .localService 0#32⟩] = .ok root ∧
    (root.reach [ascii "a", ascii "b"]).isSome ∧ ¬ PathRight root [ascii "a", ascii "b"] := by
  refine ⟨_, rfl, rfl, fun h => ?_⟩
  exact absurd h.split (by decide +kernel)

end

end Megatron.Telnet
