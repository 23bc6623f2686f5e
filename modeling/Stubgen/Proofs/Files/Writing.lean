import Mathlib.Data.List.Basic
import Mathlib.Logic.Relation
import Stubgen.Proofs.Files.Siblings

/-!
# What writing a file changes

A file is written after the directories that hold it have been made. Making directories adds nodes
to a tree and changes none, and each of them is where a directory that holds the path is found.
Writing the file then changes the one node to which its path leads. What leads to a directory before
any of this does so afterwards.
-/

namespace Stubgen.Files

/-- From a path one comes to the holder by going to the directory that holds it, and so on. -/
def Path.Holds (holder path : Path) : Prop :=
  Relation.TransGen (fun path outer => path.parent? = some outer) path holder

namespace Tree

/-- The directories of a tree are directories of another one, and relative paths begin in the same
place. -/
structure KeepsDirectories (tree next : Tree) : Prop where
  workingDirectory_eq : next.workingDirectory = tree.workingDirectory
  directories : ∀ key, tree.node? key = some .directory → next.node? key = some .directory

/-- A tree has grown by directories that some paths name, and nothing else has changed. -/
structure GrowsBy (names : Path → Prop) (tree next : Tree) : Prop where
  workingDirectory_eq : next.workingDirectory = tree.workingDirectory
  /-- What was there is there. -/
  kept : ∀ key node, tree.node? key = some node → next.node? key = some node
  /-- What was not there is not there, or it is a directory to which one of the paths leads. -/
  added : ∀ key, tree.node? key = none → next.node? key = none ∨
    ∃ path, names path ∧ next.locate path = .ok (key, .directory)

/-- A file has been written, for which directories that hold it may have been made, and nothing else
has changed. -/
structure WritesOnly (tree next : Tree) (path : Path) (content : ByteArray) : Prop where
  workingDirectory_eq : next.workingDirectory = tree.workingDirectory
  /-- One key, at which there was no directory, has the content, and the path leads to it. What was
  there at another key is there, and what was not there is not there or is a directory that holds
  the path. -/
  written : ∃ key, next.readFile path = .ok (key, content) ∧ tree.node? key ≠ some .directory ∧
    ∀ other, other ≠ key →
      next.node? other = tree.node? other ∨
        tree.node? other = none ∧
          ∃ holder : Path, holder.Holds path ∧ next.locate holder = .ok (other, .directory)

variable {tree next made : Tree} {path : Path} {here key other : Key} {steps front : List String}
  {name : String} {node : Node} {content : ByteArray} {names : Path → Prop}

/-! ## Nodes that are put into a tree -/

/-- The root is a directory. -/
@[simp] theorem node?_nil (tree : Tree) : tree.node? [] = some .directory :=
  if_pos rfl

/-- What is not the root of a tree is found in the list of its nodes. -/
theorem node?_of_ne_nil (tree : Tree) (hkey : key ≠ []) :
    tree.node? key = findNode key tree.nodes :=
  if_neg hkey

/-- The other nodes are found when those under one key are taken away. -/
theorem findNode_filter (hother : other ≠ key) (nodes : List (Key × Node)) :
    findNode other (nodes.filter fun entry => entry.1 ≠ key) = findNode other nodes := by
  induction nodes with
  | nil => rfl
  | cons entry rest ih =>
    by_cases hentry : entry.1 = key
    · have hne : other ≠ entry.1 := fun heq => hother (heq.trans hentry)
      rw [List.filter_cons_of_neg (by simpa using hentry), ih, findNode, if_neg hne]
    · rw [List.filter_cons_of_pos (by simpa using hentry), findNode, findNode, ih]

/-- After a node has been put under a key, it is there, and every other node is as before. -/
theorem node?_put (tree : Tree) (hkey : key ≠ []) (node : Node) (other : Key) :
    (tree.put key node).node? other = if other = key then some node else tree.node? other := by
  by_cases hroot : other = []
  · rw [hroot, node?_nil, if_neg (Ne.symm hkey), node?_nil]
  · rw [node?_of_ne_nil _ hroot, node?_of_ne_nil _ hroot, put, findNode]
    split
    · rfl
    · next hother => exact findNode_filter hother tree.nodes

/-- Where there is no directory, there is not the root. -/
theorem ne_nil_of_node? (h : tree.node? key ≠ some .directory) : key ≠ [] := by
  rintro rfl
  exact h (node?_nil tree)

/-- A node in a place where there was no directory leaves the directories alone. -/
theorem keepsDirectories_put (h : tree.node? key ≠ some .directory) (node : Node) :
    tree.KeepsDirectories (tree.put key node) where
  workingDirectory_eq := rfl
  directories other hother := by
    have hne : other ≠ key := fun heq => h (heq ▸ hother)
    rw [node?_put tree (ne_nil_of_node? h), if_neg hne, hother]

/-! ## Ways through a tree -/

/-- Where a name leads from a directory. -/
def follow (here : Key) (name : String) : Key :=
  if name = "." then here
  else if name = ".." then here.dropLast
  else here ++ [name]

/-- Without names one stays where one is. -/
theorem walk_nil_eq_ok_iff :
    tree.walk here [] = .ok (key, node) ↔ here = key ∧ tree.node? here = some node := by
  unfold walk
  cases tree.node? here <;> simp

/-- A name is followed from a directory. -/
theorem walk_cons_eq_ok_iff :
    tree.walk here (name :: steps) = .ok (key, node) ↔
      tree.node? here = some .directory ∧
        tree.walk (follow here name) steps = .ok (key, node) := by
  rw [walk]
  rcases tree.node? here with _ | _ | old
  · simp
  · unfold follow
    simp only [true_and]
    split
    · rfl
    · split
      · rfl
      · rfl
  · simp

/-- The way over two rows of names goes over the place to which the first ones lead. -/
theorem walk_append_eq_ok (h : tree.walk here front = .ok (other, node))
    {last : Node} (hrest : tree.walk other steps = .ok (key, last)) :
    tree.walk here (front ++ steps) = .ok (key, last) := by
  induction front generalizing here with
  | nil =>
    obtain ⟨rfl, -⟩ := walk_nil_eq_ok_iff.mp h
    exact hrest
  | cons name front ih =>
    obtain ⟨hhere, hfront⟩ := walk_cons_eq_ok_iff.mp h
    exact walk_cons_eq_ok_iff.mpr ⟨hhere, ih hfront⟩

/-- A name that is no dots leads from a directory to what is there under this name. -/
theorem walk_concat (h : tree.walk here steps = .ok (key, .directory)) (hdot : name ≠ ".")
    (hdots : name ≠ "..") (hnode : tree.node? (key ++ [name]) = some node) :
    tree.walk here (steps ++ [name]) = .ok (key ++ [name], node) := by
  have hfollow : follow key name = key ++ [name] := by
    rw [follow, if_neg hdot, if_neg hdots]
  refine walk_append_eq_ok h (walk_cons_eq_ok_iff.mpr ⟨node?_of_walk h, ?_⟩)
  exact walk_nil_eq_ok_iff.mpr ⟨hfollow, hfollow ▸ hnode⟩

/-- A dot leads nowhere else. -/
theorem walk_concat_dot (h : tree.walk here steps = .ok (key, .directory)) :
    tree.walk here (steps ++ ["."]) = .ok (key, .directory) :=
  walk_append_eq_ok h
    (walk_cons_eq_ok_iff.mpr ⟨node?_of_walk h, walk_nil_eq_ok_iff.mpr ⟨rfl, node?_of_walk h⟩⟩)

/-- A way to a directory passes only directories, so it is there as long as these are. -/
theorem KeepsDirectories.walk (hkeeps : tree.KeepsDirectories next)
    (h : tree.walk here steps = .ok (key, .directory)) :
    next.walk here steps = .ok (key, .directory) := by
  induction steps generalizing here with
  | nil =>
    obtain ⟨rfl, hnode⟩ := walk_nil_eq_ok_iff.mp h
    exact walk_nil_eq_ok_iff.mpr ⟨rfl, hkeeps.directories here hnode⟩
  | cons name rest ih =>
    obtain ⟨hhere, hrest⟩ := walk_cons_eq_ok_iff.mp h
    exact walk_cons_eq_ok_iff.mpr ⟨hkeeps.directories here hhere, ih hrest⟩

/-- A way to a file passes only directories, so it leads to what is put in the place of the file. -/
theorem walk_put_of_file {old : ByteArray} (h : tree.walk here steps = .ok (key, .file old))
    (node : Node) : (tree.put key node).walk here steps = .ok (key, node) := by
  have hfile : tree.node? key ≠ some .directory := by simp [node?_of_walk h]
  induction steps generalizing here with
  | nil =>
    obtain ⟨rfl, -⟩ := walk_nil_eq_ok_iff.mp h
    refine walk_nil_eq_ok_iff.mpr ⟨rfl, ?_⟩
    rw [node?_put tree (ne_nil_of_node? hfile), if_pos rfl]
  | cons name rest ih =>
    obtain ⟨hhere, hrest⟩ := walk_cons_eq_ok_iff.mp h
    exact walk_cons_eq_ok_iff.mpr
      ⟨(keepsDirectories_put hfile node).directories here hhere, ih hrest⟩

/-- A node that is put into a directory, under a name that is no dots, is found there. -/
theorem walk_put_of_dropLast (h : tree.walk here steps.dropLast = .ok (key, .directory))
    (hlast : steps.getLast? = some name) (hdot : name ≠ ".") (hdots : name ≠ "..")
    (hplace : tree.node? (key ++ [name]) ≠ some .directory) (node : Node) :
    (tree.put (key ++ [name]) node).walk here steps = .ok (key ++ [name], node) := by
  rw [← List.dropLast_append_getLast? name hlast]
  refine walk_concat ((keepsDirectories_put hplace node).walk h) hdot hdots ?_
  rw [node?_put tree (ne_nil_of_node? hplace), if_pos rfl]

/-- The last step is taken in a directory, to which the steps before it lead. -/
theorem lastStep_eq_ok_iff {name? : Option String} :
    tree.lastStep path steps = .ok (key, name?) ↔
      tree.walk (tree.origin path) steps.dropLast = .ok (key, .directory) ∧
        steps.getLast? = name? := by
  unfold lastStep
  generalize tree.walk (tree.origin path) steps.dropLast = walked
  obtain e | ⟨found, _ | old⟩ := walked
  · simp
  · simp
  · simp

/-- What a path leads to is found by walking. -/
theorem locate_eq_walk (tree : Tree) (hnull : '\x00' ∉ path.text.toList) (hempty : path.text ≠ "") :
    tree.locate path = tree.walk (tree.origin path) path.steps := by
  rw [locate, if_neg hnull, if_neg hempty]

/-- A path that leads somewhere is walked. -/
theorem walk_of_locate (h : tree.locate path = .ok (key, node)) :
    '\x00' ∉ path.text.toList ∧ path.text ≠ "" ∧
      tree.walk (tree.origin path) path.steps = .ok (key, node) := by
  unfold locate at h
  split at h
  · exact nomatch h
  · next hnull =>
    split at h
    · exact nomatch h
    · next hempty => exact ⟨hnull, hempty, h⟩

/-- A path that leads to a directory does so as long as the directories are there. -/
theorem KeepsDirectories.locate (hkeeps : tree.KeepsDirectories next)
    (h : tree.locate path = .ok (key, .directory)) :
    next.locate path = .ok (key, .directory) := by
  obtain ⟨hnull, hempty, hwalk⟩ := walk_of_locate h
  have horigin : next.origin path = tree.origin path := by
    rw [origin, origin, hkeeps.workingDirectory_eq]
  rw [locate_eq_walk next hnull hempty, horigin, hkeeps.walk hwalk]

/-! ## Names of directories -/

/-- Slashes at the end add no name. -/
theorem names_dropWhile_slash (reversed : List Char) :
    Path.names (reversed.dropWhile (· = '/')).reverse = Path.names reversed.reverse := by
  induction reversed with
  | nil => rfl
  | cons c rest ih =>
    by_cases hc : c = '/'
    · rw [List.dropWhile_cons_of_pos (by simpa using hc), ih, List.reverse_cons, hc,
        Path.names_concat_slash]
    · rw [List.dropWhile_cons_of_neg (by simpa using hc)]

/-- A path has the steps that it has without the slashes at its end, and a dot for these. -/
theorem steps_eq (path : Path) :
    path.steps = directorySteps path ++
      if path.text.toList.getLast? = some '/' then ["."] else [] := by
  have hlast : (path.text.toList.reverse.dropWhile (· = '/')).reverse.getLast? ≠ some '/' := by
    intro h
    rw [List.getLast?_reverse] at h
    have hhead := List.head?_dropWhile_not (· = '/') path.text.toList.reverse
    rw [h] at hhead
    exact absurd hhead (by decide)
  have hdirectory : directorySteps path = (Path.names path.text.toList).map String.ofList := by
    have hnames := names_dropWhile_slash path.text.toList.reverse
    rw [List.reverse_reverse] at hnames
    unfold directorySteps Path.steps
    dsimp only
    rw [String.toList_ofList, if_neg hlast]
    exact congrArg (List.map String.ofList) hnames
  rw [hdirectory]
  unfold Path.steps
  split
  · exact List.map_append
  · exact (List.append_nil _).symm

/-! ## Directories that are made -/

/-- A directory that has been made is a new node, and its path leads there. -/
theorem put_of_makeDirectory (h : tree.makeDirectory path = .ok made) :
    ∃ key, tree.node? key = none ∧ made = tree.put key .directory ∧
      made.locate path = .ok (key, .directory) := by
  unfold makeDirectory at h
  split at h
  · exact nomatch h
  next hnull =>
  split at h
  · exact nomatch h
  next hempty =>
  split at h
  · exact nomatch h
  · exact nomatch h
  next key name hstep =>
  split at h
  · exact nomatch h
  next hname =>
  split at h
  · exact nomatch h
  next hnew =>
  obtain rfl := Except.ok.inj h
  obtain ⟨hwalk, hlast⟩ := lastStep_eq_ok_iff.mp hstep
  obtain ⟨hdot, hdots⟩ := not_or.mp hname
  have hthere := walk_put_of_dropLast hwalk hlast hdot hdots (by simp [hnew]) .directory
  refine ⟨key ++ [name], hnew, rfl, ?_⟩
  rw [locate_eq_walk _ hnull hempty, steps_eq]
  split
  · exact walk_concat_dot hthere
  · rw [List.append_nil]
    exact hthere

namespace GrowsBy

/-- A tree that stays as it is has grown by nothing. -/
theorem refl (names : Path → Prop) (tree : Tree) : tree.GrowsBy names tree where
  workingDirectory_eq := rfl
  kept := fun _ _ => id
  added := fun _ => .inl

/-- A tree that has grown has kept its directories. -/
theorem keepsDirectories (h : tree.GrowsBy names next) : tree.KeepsDirectories next where
  workingDirectory_eq := h.workingDirectory_eq
  directories key := h.kept key .directory

/-- A tree that has grown twice has grown. -/
theorem trans {last : Tree} (h : tree.GrowsBy names next) (h' : next.GrowsBy names last) :
    tree.GrowsBy names last where
  workingDirectory_eq := h'.workingDirectory_eq.trans h.workingDirectory_eq
  kept key node hnode := h'.kept key node (h.kept key node hnode)
  added key hnone := by
    rcases h.added key hnone with hnone | ⟨path, hpath, hlocate⟩
    · exact h'.added key hnone
    · exact .inr ⟨path, hpath, h'.keepsDirectories.locate hlocate⟩

/-- Growth by some paths is growth by more of them. -/
theorem mono {names' : Path → Prop} (h : tree.GrowsBy names next)
    (hnames : ∀ path, names path → names' path) : tree.GrowsBy names' next where
  workingDirectory_eq := h.workingDirectory_eq
  kept := h.kept
  added key hnone := (h.added key hnone).imp_right fun ⟨path, hpath, hlocate⟩ =>
    ⟨path, hnames path hpath, hlocate⟩

/-- Making a directory lets a tree grow by the path of this directory. -/
theorem of_makeDirectory (h : tree.makeDirectory path = .ok made) (hpath : names path) :
    tree.GrowsBy names made := by
  obtain ⟨key, hnew, rfl, hlocate⟩ := put_of_makeDirectory h
  have hplace : tree.node? key ≠ some .directory := by simp [hnew]
  have hkey : key ≠ [] := ne_nil_of_node? hplace
  refine ⟨rfl, fun other node hother => ?_, fun other hother => ?_⟩
  · have hne : other ≠ key := by
      rintro rfl
      simp [hnew] at hother
    rw [node?_put tree hkey, if_neg hne, hother]
  · by_cases heq : other = key
    · exact .inr ⟨path, hpath, heq ▸ hlocate⟩
    · exact .inl (by rw [node?_put tree hkey, if_neg heq, hother])

/-- A directory that could not be made changes nothing. -/
theorem of_acceptExisting (hpath : names path) :
    tree.GrowsBy names (tree.acceptExisting path (tree.makeDirectory path)).2 := by
  cases hmake : tree.makeDirectory path with
  | error e => exact refl names tree
  | ok made => exact of_makeDirectory hmake hpath

/-- A directory may be made without those that hold it. -/
theorem of_makeWithin_nil (hpath : names path) :
    tree.GrowsBy names (tree.makeWithin path []).2 := by
  rw [makeWithin]
  split
  · exact refl names tree
  · exact of_acceptExisting hpath

end GrowsBy

/-- Making a directory with those that hold it lets a tree grow by their paths, even if it fails on
the way. -/
theorem growsBy_makeWithin (tree : Tree) (fuel : Nat) (path : Path) :
    tree.GrowsBy (fun holder => holder = path ∨ holder.Holds path)
      (tree.makeWithin path (ancestors fuel path)).2 := by
  induction fuel generalizing path with
  | zero => exact GrowsBy.of_makeWithin_nil (.inl rfl)
  | succ fuel ih =>
    rw [ancestors]
    cases hparent : path.parent? with
    | none => exact GrowsBy.of_makeWithin_nil (.inl rfl)
    | some outer =>
      have houter : tree.GrowsBy (fun holder => holder = path ∨ holder.Holds path)
          (tree.makeWithin outer (ancestors fuel outer)).2 := by
        refine (ih outer).mono ?_
        rintro holder (rfl | hholds)
        · exact .inr (.single hparent)
        · exact .inr (.head hparent hholds)
      dsimp only
      rw [makeWithin]
      split
      · exact GrowsBy.refl _ tree
      split
      · generalize tree.makeWithin outer (ancestors fuel outer) = outcome at houter ⊢
        obtain ⟨_ | _, made⟩ := outcome
        · exact houter
        · exact houter.trans (GrowsBy.of_acceptExisting (.inl rfl))
      · exact GrowsBy.of_acceptExisting (.inl rfl)

/-- Making the directories that hold a path lets a tree grow by their paths, even if it fails on the
way. -/
theorem growsBy_makeDirectories (tree : Tree) (path : Path) :
    tree.GrowsBy (fun holder => holder.Holds path) (tree.makeDirectories path.directory).2 := by
  cases hparent : path.parent? with
  | none =>
    have hnowhere : path.directory = ⟨""⟩ := by
      rw [Path.directory, hparent]
      rfl
    rw [hnowhere]
    exact GrowsBy.refl _ tree
  | some outer =>
    have hdirectory : path.directory = outer := by
      rw [Path.directory, hparent]
      rfl
    rw [hdirectory]
    refine (growsBy_makeWithin tree _ outer).mono ?_
    rintro holder (rfl | hholds)
    · exact .single hparent
    · exact .head hparent hholds

/-! ## Files that are written -/

/-- A file that has been written stands where there was no directory, and its path leads there. -/
theorem put_of_writeFile (hlast : path.steps.getLast? ≠ some "..")
    (h : tree.writeFile path content = .ok next) :
    ∃ key, tree.node? key ≠ some .directory ∧ next = tree.put key (.file content) ∧
      next.readFile path = .ok (key, content) := by
  unfold writeFile at h
  split at h
  · cases h
  next hnull =>
  split at h
  · cases h
  next hempty =>
  have hread (key : Key)
      (hwalk : (tree.put key (.file content)).walk (tree.origin path) path.steps =
        .ok (key, .file content)) :
      (tree.put key (.file content)).readFile path = .ok (key, content) := by
    have horigin : (tree.put key (.file content)).origin path = tree.origin path := rfl
    rw [readFile, locate_eq_walk _ hnull hempty, horigin, hwalk]
  split at h
  · cases h
  · next key old hlocate =>
    obtain rfl := Except.ok.inj h
    obtain ⟨-, -, hwalk⟩ := walk_of_locate hlocate
    have hplace : tree.node? key ≠ some .directory := by simp [node?_of_walk hwalk]
    exact ⟨key, hplace, rfl, hread key (walk_put_of_file hwalk _)⟩
  · next hmissing =>
    split at h
    · cases h
    · cases h
    next key name hstep =>
    split at h
    · cases h
    next hdot =>
    obtain rfl := Except.ok.inj h
    obtain ⟨hwalk, hname⟩ := lastStep_eq_ok_iff.mp hstep
    have hdots : name ≠ ".." := fun heq => hlast (heq ▸ hname)
    -- A directory at this place would have been found.
    have hplace : tree.node? (key ++ [name]) ≠ some .directory := by
      intro hnode
      have hfound := walk_concat hwalk hdot hdots hnode
      rw [List.dropLast_append_getLast? name hname, ← locate_eq_walk tree hnull hempty,
        hmissing] at hfound
      cases hfound
    exact ⟨key ++ [name], hplace, rfl,
      hread _ (walk_put_of_dropLast hwalk hname hdot hdots hplace _)⟩
  · cases h

/-- A file that is written after the directories that hold it have been made is the only file that
changes. -/
theorem GrowsBy.writesOnly (hgrows : tree.GrowsBy (fun holder => holder.Holds path) made)
    (hlast : path.steps.getLast? ≠ some "..") (hwrite : made.writeFile path content = .ok next) :
    tree.WritesOnly next path content := by
  obtain ⟨key, hplace, rfl, hread⟩ := put_of_writeFile hlast hwrite
  have hkeeps := keepsDirectories_put hplace (.file content)
  refine ⟨hgrows.workingDirectory_eq, key, hread, fun hnode => ?_, fun other hother => ?_⟩
  · exact hplace (hgrows.kept key .directory hnode)
  · rw [node?_put made (ne_nil_of_node? hplace), if_neg hother]
    cases hnode : tree.node? other with
    | some node => exact .inl (hgrows.kept other node hnode)
    | none =>
      refine (hgrows.added other hnode).imp_right fun ⟨holder, hholds, hlocate⟩ => ?_
      exact ⟨rfl, holder, hholds, hkeeps.locate hlocate⟩

/-! ## Names with a given ending -/

/-- An ending without a slash is the ending of the last name. -/
theorem names_append_ending {ending : List Char} (hslash : '/' ∉ ending) (hending : ending ≠ [])
    (text : List Char) :
    ∃ outer last, Path.names (text ++ ending) = outer ++ [last ++ ending] := by
  have hlast {last : List Char} (h : '/' ∉ last) :
      Path.names (last ++ ending) = [last ++ ending] := by
    have hall : '/' ∉ last ++ ending := by simp [h, hslash]
    rw [Path.names, Text.splitAt_of_notMem hall]
    simp [hending]
  by_cases htext : '/' ∈ text
  · -- The last slash of the text is the first one from its end.
    obtain ⟨last, outer, hsplit, hno⟩ := List.eq_append_cons_of_mem (List.mem_reverse.mpr htext)
    have hsplit : text = outer.reverse ++ '/' :: last.reverse := by
      simpa using congrArg List.reverse hsplit
    refine ⟨Path.names outer.reverse, last.reverse, ?_⟩
    rw [hsplit, List.append_assoc, List.cons_append, Path.names_append_slash,
      hlast (by simpa using hno)]
  · exact ⟨[], text, hlast htext⟩

/-- The last step of a path that has an ending without a slash has this ending. -/
theorem getLast?_steps_of_ending {ending : List Char} (hslash : '/' ∉ ending)
    (hending : ending ≠ []) (h : ending <:+ path.text.toList) :
    ∃ name, path.steps.getLast? = some name ∧ ending <:+ name.toList := by
  obtain ⟨text, htext⟩ := h
  obtain ⟨outer, last, hnames⟩ := names_append_ending hslash hending text
  have hno : path.text.toList.getLast? ≠ some '/' := by
    rw [← htext, List.getLast?_append, List.getLast?_eq_some_getLast hending, Option.some_or]
    intro heq
    exact hslash (Option.some.inj heq ▸ List.getLast_mem hending)
  have hsteps : path.steps = (outer ++ [last ++ ending]).map String.ofList := by
    rw [← hnames, htext]
    unfold Path.steps
    dsimp only
    rw [if_neg hno]
    rfl
  refine ⟨String.ofList (last ++ ending), ?_, ?_⟩
  · rw [hsteps, List.map_append, List.getLast?_append]
    rfl
  · rw [String.toList_ofList]
    exact List.suffix_append _ _

end Tree

end Stubgen.Files
