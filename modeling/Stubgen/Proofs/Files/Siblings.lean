import Stubgen.Files.Tree

/-!
# Files of one directory

A path of a file tells its directory, and other files of that directory can be named from there.
The directory is told without empty names and dots at its end, so that the path of another file may
be spelled differently than one would write it. It leads to the same file, and tells the same
directory.
-/

namespace Stubgen.Files

/-- A name of something in a directory: it has characters, none of them a slash, and it is not the
dot, which stands for the directory itself. -/
structure IsName (name : String) : Prop where
  nonempty : name.toList ≠ []
  no_slash : '/' ∉ name.toList
  not_dot : name.toList ≠ ['.']

instance (name : String) : Decidable (IsName name) :=
  decidable_of_iff (name.toList ≠ [] ∧ '/' ∉ name.toList ∧ name.toList ≠ ['.'])
    ⟨fun h => ⟨h.1, h.2.1, h.2.2⟩, fun h => ⟨h.nonempty, h.no_slash, h.not_dot⟩⟩

namespace Path

/-- The text begins with an empty name or with a dot as a name. -/
def BeginsIdly (text : List Char) : Prop :=
  (∃ rest, text = '/' :: rest) ∨ text = ['.'] ∨ ∃ rest, text = '.' :: '/' :: rest

/-- What stands before a name in the path of a file in the directory. -/
def base (directory : Path) : List Char :=
  if directory.text.toList = [] ∨ directory.text.toList.getLast? = some '/' then
    directory.text.toList
  else directory.text.toList ++ ['/']

/-- The text after the anchor. -/
def afterAnchor (text : List Char) : List Char :=
  text.drop (anchor text).length

/-- The directory as the path of a file in it tells it. -/
def trimmed (directory : Path) : Path :=
  ⟨String.ofList
    (anchor directory.base ++ (trimNames (afterAnchor directory.base).reverse).reverse)⟩

/-- The names between the slashes of a text, apart from empty ones. -/
def names (text : List Char) : List (List Char) :=
  (Text.splitAt '/' text).filter (· ≠ [])

variable {directory : Path} {name : String} {text front rest : List Char}

/-! ## Idle names at the beginning -/

/-- A text has no anchor exactly if it does not begin idly. -/
theorem anchor_eq_nil_iff : anchor text = [] ↔ ¬ BeginsIdly text := by
  unfold anchor BeginsIdly
  split <;> simp_all

/-- Trimmed names do not begin idly. -/
theorem not_beginsIdly_trimNames (text : List Char) : ¬ BeginsIdly (trimNames text) := by
  fun_induction trimNames text with
  | case1 => simp [BeginsIdly]
  | case2 rest ih => exact ih
  | case3 => simp [BeginsIdly]
  | case4 rest ih => exact ih
  | case5 c rest hslash hdot hboth => simp_all [BeginsIdly]

/-- Names that do not begin idly are trimmed already. -/
theorem trimNames_eq_self (h : ¬ BeginsIdly text) : trimNames text = text := by
  fun_cases trimNames text <;> simp_all [BeginsIdly]

/-- Trimming takes away from the beginning only. -/
theorem trimNames_suffix (text : List Char) : trimNames text <:+ text := by
  fun_induction trimNames text with
  | case1 => exact List.suffix_rfl
  | case2 rest ih => exact ih.trans (List.suffix_cons _ _)
  | case3 => exact List.nil_suffix
  | case4 rest ih => exact ih.trans ((List.suffix_cons _ _).trans (List.suffix_cons _ _))
  | case5 => exact List.suffix_rfl

/-- A text begins idly if it does so with more text after it. -/
theorem BeginsIdly.of_append (h : BeginsIdly (front ++ rest)) (hfront : front ≠ []) :
    BeginsIdly front := by
  obtain ⟨c, cs, rfl⟩ := List.exists_cons_of_ne_nil hfront
  rcases h with ⟨more, h⟩ | h | ⟨more, h⟩
  · obtain ⟨rfl, -⟩ := List.cons.inj h
    exact .inl ⟨cs, rfl⟩
  · simp only [List.cons_append, List.cons.injEq, List.append_eq_nil_iff] at h
    obtain ⟨rfl, rfl, -⟩ := h
    exact .inr (.inl rfl)
  · cases cs with
    | nil =>
      obtain ⟨rfl, -⟩ := List.cons.inj h
      exact .inr (.inl rfl)
    | cons d ds =>
      simp only [List.cons_append, List.cons.injEq] at h
      obtain ⟨rfl, rfl, -⟩ := h
      exact .inr (.inr ⟨ds, rfl⟩)

/-- A text with more text after it has the same anchor. -/
theorem anchor_append (hfront : front ≠ []) (hdot : front ≠ ['.']) :
    anchor (front ++ rest) = anchor front := by
  by_cases hidle : BeginsIdly front
  · rcases hidle with ⟨more, rfl⟩ | rfl | ⟨more, rfl⟩
    · rfl
    · exact absurd rfl hdot
    · rfl
  · rw [anchor_eq_nil_iff.mpr hidle, anchor_eq_nil_iff]
    exact fun h => hidle (h.of_append hfront)

/-- A text consists of its anchor and what comes after it. -/
theorem anchor_append_afterAnchor (text : List Char) : anchor text ++ afterAnchor text = text := by
  unfold afterAnchor anchor
  split <;> rfl

/-- Text that leaves the anchor as it is follows what follows the anchor. -/
theorem afterAnchor_append (h : anchor (front ++ rest) = anchor front) :
    afterAnchor (front ++ rest) = afterAnchor front ++ rest := by
  refine (List.append_right_inj (anchor front)).mp ?_
  rw [← List.append_assoc, anchor_append_afterAnchor front, ← h]
  exact anchor_append_afterAnchor (front ++ rest)

/-- A name does not begin idly, in whichever direction it is read. -/
theorem not_beginsIdly_of_isName {cs : List Char} (hname : IsName name)
    (hcs : cs = name.toList ∨ cs = name.toList.reverse) (rest : List Char) :
    ¬ BeginsIdly (cs ++ rest) := by
  have hnonempty : cs ≠ [] := by rcases hcs with rfl | rfl <;> simpa using hname.nonempty
  intro hidle
  rcases hidle.of_append hnonempty with ⟨more, hmore⟩ | hdot | ⟨more, hmore⟩
  · have hslash : '/' ∈ cs := by simp [hmore]
    exact hname.no_slash (by rcases hcs with rfl | rfl <;> simpa using hslash)
  · refine hname.not_dot ?_
    rcases hcs with rfl | rfl
    · exact hdot
    · simpa using congrArg List.reverse hdot
  · have hslash : '/' ∈ cs := by simp [hmore]
    exact hname.no_slash (by rcases hcs with rfl | rfl <;> simpa using hslash)

/-! ## Joining a name -/

/-- What stands before a name is nothing or ends with a slash. -/
theorem base_cases (directory : Path) :
    directory.base = [] ∨ ∃ front, directory.base = front ++ ['/'] := by
  unfold base
  split
  · next h =>
    rcases h with h | h
    · exact .inl h
    · exact .inr (List.getLast?_eq_some_iff.mp h)
  · exact .inr ⟨_, rfl⟩

/-- A file of a directory is named by its name after what stands before it. -/
theorem join_text (hname : IsName name) :
    (directory.join ⟨name⟩).text.toList = directory.base ++ name.toList := by
  have hrelative : ¬ (Path.mk name).isAbsolute := by
    intro habsolute
    obtain ⟨rest, hrest⟩ := List.head?_eq_some_iff.mp (by simpa [isAbsolute] using habsolute)
    exact hname.no_slash (hrest ▸ List.mem_cons_self)
  unfold join base
  rw [if_neg hrelative]
  split
  · rw [String.toList_append]
  · simp [String.toList_append]

/-- A name does not change the anchor of what stands before it. -/
theorem anchor_base_append (directory : Path) (hname : IsName name) :
    anchor (directory.base ++ name.toList) = anchor directory.base := by
  rcases directory.base_cases with hbase | ⟨front, hbase⟩
  · have hidle := not_beginsIdly_of_isName hname (.inl rfl) []
    rw [List.append_nil, ← anchor_eq_nil_iff] at hidle
    rw [hbase, List.nil_append, hidle]
    rfl
  · refine anchor_append (by simp [hbase]) ?_
    rw [hbase]
    intro h
    have hlast := congrArg List.getLast? h
    simp at hlast

/-- After its anchor, what stands before a name is nothing or ends with a slash. -/
theorem afterAnchor_base_cases (directory : Path) :
    afterAnchor directory.base = [] ∨ ∃ front, afterAnchor directory.base = front ++ ['/'] := by
  have hsplit := anchor_append_afterAnchor directory.base
  generalize hafter : afterAnchor directory.base = after at hsplit ⊢
  rcases List.eq_nil_or_concat after with hnil | ⟨front, c, rfl⟩
  · exact .inl hnil
  · rcases directory.base_cases with hbase | ⟨more, hbase⟩
    · simp [hbase] at hsplit
    · rw [hbase, List.concat_eq_append, ← List.append_assoc] at hsplit
      obtain ⟨-, hc⟩ := List.append_inj' hsplit rfl
      exact .inr ⟨front, by rw [List.concat_eq_append, hc]⟩

/-- The path of a file tells its directory. -/
theorem directory_join (hname : IsName name) :
    (directory.join ⟨name⟩).directory = directory.trimmed := by
  have hanchor : anchor (directory.join ⟨name⟩).text.toList = anchor directory.base := by
    rw [join_text hname, anchor_base_append directory hname]
  have hafter : (directory.join ⟨name⟩).text.toList.drop (anchor directory.base).length =
      afterAnchor directory.base ++ name.toList := by
    have hunchanged := anchor_base_append directory hname
    rw [join_text hname, ← afterAnchor_append hunchanged, afterAnchor, hunchanged]
  have hnames : (directory.join ⟨name⟩).namesReversed =
      name.toList.reverse ++ (afterAnchor directory.base).reverse := by
    rw [namesReversed, hanchor, hafter, List.reverse_append]
    exact trimNames_eq_self (not_beginsIdly_of_isName hname (.inr rfl) _)
  have hinside : ∀ c ∈ name.toList.reverse, decide (c ≠ '/') = true := by
    intro c hc
    simpa using ne_of_mem_of_not_mem (List.mem_reverse.mp hc) hname.no_slash
  have houter : trimNames
      (((directory.join ⟨name⟩).namesReversed.dropWhile (· ≠ '/')).drop 1) =
        trimNames (afterAnchor directory.base).reverse := by
    rw [hnames]
    rcases directory.afterAnchor_base_cases with hnil | ⟨front, hfront⟩
    · rw [hnil, List.reverse_nil, Text.dropWhile_append_exact hinside (by simp)]
      rfl
    · rw [hfront, List.reverse_append, List.reverse_singleton, List.singleton_append,
        Text.dropWhile_append_exact hinside (by simp), trimNames]
      rfl
  have hparent : (directory.join ⟨name⟩).parent? = some directory.trimmed := by
    unfold parent?
    dsimp only
    split
    · next hnil => simp [hnames, hname.nonempty] at hnil
    · rw [houter, hanchor]
      rfl
  rw [Path.directory, hparent]
  rfl

/-! ## The directory that a path tells -/

/-- What stands before a name in the directory that a path tells: its text, with a slash at the end
if one is missing. -/
theorem base_trimmed_cases (directory : Path) : ∃ slash, (slash = [] ∨ slash = ['/']) ∧
    directory.trimmed.base = directory.trimmed.text.toList ++ slash ∧
    (directory.trimmed.text.toList = ['.'] → slash = ['/']) ∧
    (directory.trimmed.text.toList = [] → slash = []) := by
  unfold base
  split
  · next h =>
    refine ⟨[], .inl rfl, by simp, fun hdot => ?_, fun _ => rfl⟩
    simp [hdot] at h
  · next h => exact ⟨['/'], .inr rfl, rfl, fun _ => rfl, fun hnil => absurd (.inl hnil) h⟩

/-- The text of the directory that a path tells. -/
theorem trimmed_text (directory : Path) : directory.trimmed.text.toList =
    anchor directory.base ++ (trimNames (afterAnchor directory.base).reverse).reverse :=
  String.toList_ofList

/-- The directory that a path tells has the anchor of the directory itself. -/
theorem anchor_base_trimmed (directory : Path) :
    anchor directory.trimmed.base = anchor directory.base := by
  obtain ⟨slash, -, hbase, hdot, hnil⟩ := directory.base_trimmed_cases
  have htext := directory.trimmed_text
  have hprefix : directory.trimmed.text.toList <+: directory.base := by
    have hsuffix := trimNames_suffix (afterAnchor directory.base).reverse
    have hafter := List.reverse_prefix.mpr hsuffix
    rw [List.reverse_reverse] at hafter
    have hwhole := (List.prefix_append_right_inj (anchor directory.base)).mpr hafter
    rwa [anchor_append_afterAnchor, ← htext] at hwhole
  rw [hbase]
  by_cases hempty : directory.trimmed.text.toList = []
  · rw [hempty, eq_comm, List.append_eq_nil_iff] at htext
    rw [hempty, hnil hempty, htext.1]
    rfl
  by_cases honly : directory.trimmed.text.toList = ['.']
  · -- The dot is the anchor, because what is trimmed does not begin with a dot alone.
    have hidle := not_beginsIdly_trimNames (afterAnchor directory.base).reverse
    rw [honly, hdot honly]
    rw [honly] at htext
    rcases List.cons_eq_append_iff.mp htext with ⟨-, hrest⟩ | ⟨cs, hanchor, hrest⟩
    · exact absurd (.inr (.inl (List.reverse_eq_iff.mp hrest))) hidle
    · obtain ⟨rfl, -⟩ := List.append_eq_nil_iff.mp hrest.symm
      exact hanchor.symm
  · obtain ⟨more, hmore⟩ := hprefix
    rw [anchor_append hempty honly, ← hmore, anchor_append hempty honly]

/-- The end of what stands before a name is trimmed once and for all. -/
theorem trimmed_trimmed (directory : Path) : directory.trimmed.trimmed = directory.trimmed := by
  obtain ⟨slash, hslash, hbase, -, -⟩ := directory.base_trimmed_cases
  have hanchor := directory.anchor_base_trimmed
  have hafter : afterAnchor directory.trimmed.base =
      (trimNames (afterAnchor directory.base).reverse).reverse ++ slash := by
    rw [afterAnchor, hanchor, hbase, trimmed_text, List.append_assoc, List.drop_left]
  have hself := trimNames_eq_self (not_beginsIdly_trimNames (afterAnchor directory.base).reverse)
  have htrim : trimNames (afterAnchor directory.trimmed.base).reverse =
      trimNames (afterAnchor directory.base).reverse := by
    rw [hafter, List.reverse_append, List.reverse_reverse]
    rcases hslash with rfl | rfl
    · exact hself
    · rwa [List.reverse_singleton, List.singleton_append, trimNames]
  unfold trimmed at hanchor htrim ⊢
  rw [hanchor, htrim]

/-! ## Names to follow -/

/-- The names of a text that is cut at a slash are those on either side. -/
theorem names_append_slash (front rest : List Char) :
    names (front ++ '/' :: rest) = names front ++ names rest := by
  rw [names, Text.splitAt_append, List.filter_append]
  rfl

/-- A slash at the end adds no name. -/
theorem names_concat_slash (front : List Char) : names (front ++ ['/']) = names front := by
  rw [names_append_slash]
  exact List.append_nil _

/-- A name is the only name in it. -/
theorem names_of_isName (hname : IsName name) : names name.toList = [name.toList] := by
  rw [names, Text.splitAt_of_notMem hname.no_slash]
  simp [hname.nonempty]

/-- A name behind nothing or behind a slash is one more name. -/
theorem names_append_isName (h : text = [] ∨ ∃ front, text = front ++ ['/']) (hname : IsName name) :
    names (text ++ name.toList) = names text ++ [name.toList] := by
  rcases h with rfl | ⟨front, rfl⟩
  · rw [List.nil_append, names_of_isName hname]
    rfl
  · rw [List.append_assoc, List.singleton_append, names_append_slash, names_concat_slash,
      names_of_isName hname]

/-- Trimming takes away dots only. -/
theorem names_trimNames (text : List Char) : ∃ n,
    names text.reverse = names (trimNames text).reverse ++ List.replicate n ['.'] := by
  fun_induction trimNames text with
  | case1 => exact ⟨0, rfl⟩
  | case2 rest ih =>
    obtain ⟨n, hn⟩ := ih
    exact ⟨n, by rw [List.reverse_cons, names_concat_slash, hn]⟩
  | case3 => exact ⟨1, rfl⟩
  | case4 rest ih =>
    obtain ⟨n, hn⟩ := ih
    refine ⟨n + 1, ?_⟩
    rw [List.reverse_cons, List.reverse_cons, List.append_assoc, List.singleton_append,
      names_append_slash, hn, List.append_assoc, List.replicate_succ']
    rfl
  | case5 => exact ⟨0, (List.append_nil _).symm⟩

/-- The names of a text are those of its anchor and those of what comes after it, as far as it is
read. -/
theorem names_anchor_append (h : rest <+: afterAnchor text) :
    names (anchor text ++ rest) = names (anchor text) ++ names rest := by
  by_cases hidle : BeginsIdly text
  · rcases hidle with ⟨more, rfl⟩ | rfl | ⟨more, rfl⟩
    · exact names_append_slash [] rest
    · obtain rfl := List.prefix_nil.mp h
      rfl
    · cases rest with
      | nil => rfl
      | cons c cs =>
        obtain ⟨rfl, -⟩ := List.cons_prefix_cons.mp h
        rw [show anchor ('.' :: '/' :: more) = ['.'] from rfl, names_append_slash]
        rfl
  · rw [anchor_eq_nil_iff.mpr hidle]
    rfl

/-- The directory that a path tells has the names of the directory itself, apart from dots at the
end. -/
theorem names_base (directory : Path) : ∃ n,
    names directory.base = names directory.trimmed.base ++ List.replicate n ['.'] := by
  obtain ⟨slash, hslash, hbase, -, -⟩ := directory.base_trimmed_cases
  obtain ⟨n, hn⟩ := names_trimNames (afterAnchor directory.base).reverse
  rw [List.reverse_reverse] at hn
  have htext : names directory.trimmed.base = names directory.trimmed.text.toList := by
    rw [hbase]
    rcases hslash with rfl | rfl
    · rw [List.append_nil]
    · exact names_concat_slash _
  have hprefix := List.reverse_prefix.mpr (trimNames_suffix (afterAnchor directory.base).reverse)
  rw [List.reverse_reverse] at hprefix
  refine ⟨n, ?_⟩
  calc names directory.base
      = names (anchor directory.base ++ afterAnchor directory.base) := by
        rw [anchor_append_afterAnchor]
    _ = names (anchor directory.base) ++ names (afterAnchor directory.base) :=
        names_anchor_append List.prefix_rfl
    _ = names directory.trimmed.text.toList ++ List.replicate n ['.'] := by
        rw [hn, trimmed_text, names_anchor_append hprefix, List.append_assoc]
    _ = names directory.trimmed.base ++ List.replicate n ['.'] := by rw [htext]

/-- The names to follow to a file of the directory. -/
theorem steps_join (hname : IsName name) : (directory.join ⟨name⟩).steps =
    (names directory.base).map String.ofList ++ [name] := by
  have hlast : (directory.base ++ name.toList).getLast? ≠ some '/' := by
    rw [List.getLast?_append, List.getLast?_eq_some_getLast hname.nonempty, Option.some_or]
    intro h
    exact hname.no_slash (Option.some.inj h ▸ List.getLast_mem hname.nonempty)
  unfold steps
  dsimp only
  rw [join_text hname, if_neg hlast]
  change (names _).map String.ofList = _
  rw [names_append_isName directory.base_cases hname, List.map_append, List.map_singleton,
    String.ofList_toList]

/-- Trimming takes away slashes and dots only. -/
theorem mem_trimNames {c : Char} (hslash : c ≠ '/') (hdot : c ≠ '.') (text : List Char) :
    c ∈ trimNames text ↔ c ∈ text := by
  fun_induction trimNames text with
  | case2 rest ih => simpa [hslash] using ih
  | case4 rest ih => simpa [hslash, hdot] using ih
  | _ => simp [hdot]

/-- The directory that a path tells has the characters of the directory itself, apart from slashes
and dots. -/
theorem mem_base_trimmed {c : Char} (hslash : c ≠ '/') (hdot : c ≠ '.') (directory : Path) :
    c ∈ directory.trimmed.base ↔ c ∈ directory.base := by
  obtain ⟨slash, hcases, hbase, -, -⟩ := directory.base_trimmed_cases
  have hmem : c ∉ slash := by
    rcases hcases with rfl | rfl
    · exact List.not_mem_nil
    · simpa using hslash
  calc c ∈ directory.trimmed.base
      ↔ c ∈ anchor directory.base ∨ c ∈ afterAnchor directory.base := by
        simp [hbase, hmem, trimmed_text, mem_trimNames hslash hdot]
    _ ↔ c ∈ directory.base := by rw [← List.mem_append, anchor_append_afterAnchor]

/-- A path begins with a slash exactly if the slash is its anchor. -/
theorem isAbsolute_iff (path : Path) :
    path.isAbsolute = true ↔ anchor path.text.toList = ['/'] := by
  unfold isAbsolute anchor
  split <;> simp_all [List.head?_eq_some_iff]

end Path

namespace Tree


/-- Dots before another name make no difference. -/
theorem walk_dots (tree : Tree) (here : Key) (n : Nat) (name : String) (rest : List String) :
    tree.walk here (List.replicate n "." ++ name :: rest) = tree.walk here (name :: rest) := by
  induction n with
  | zero => rfl
  | succ n ih =>
    rw [List.replicate_succ, List.cons_append, walk, if_pos rfl, ih]
    rw [walk]
    cases tree.node? here with
    | none => rfl
    | some node => cases node <;> rfl

/-- Names that lead to the same from every place do so after others. -/
theorem walk_append_congr {tree : Tree} {steps steps' : List String}
    (h : ∀ here, tree.walk here steps = tree.walk here steps') (front : List String) (here : Key) :
    tree.walk here (front ++ steps) = tree.walk here (front ++ steps') := by
  induction front generalizing here with
  | nil => exact h here
  | cons name front ih => simp only [List.cons_append, walk, ih]

/-- A file is the same if it is named in the directory that a path tells. -/
theorem readFile_trimmed_join (tree : Tree) (directory : Path) {name : String}
    (hname : IsName name) :
    tree.readFile (directory.trimmed.join ⟨name⟩) = tree.readFile (directory.join ⟨name⟩) := by
  have horigin : tree.origin (directory.trimmed.join ⟨name⟩) =
      tree.origin (directory.join ⟨name⟩) := by
    have habsolute : (directory.trimmed.join ⟨name⟩).isAbsolute =
        (directory.join ⟨name⟩).isAbsolute := by
      rw [Bool.eq_iff_iff, Path.isAbsolute_iff, Path.isAbsolute_iff, Path.join_text hname,
        Path.join_text hname, Path.anchor_base_append _ hname, Path.anchor_base_append _ hname,
        Path.anchor_base_trimmed]
    rw [origin, origin, habsolute]
  have hwalk (here : Key) : tree.walk here (directory.trimmed.join ⟨name⟩).steps =
      tree.walk here (directory.join ⟨name⟩).steps := by
    obtain ⟨n, hn⟩ := directory.names_base
    rw [Path.steps_join hname, Path.steps_join hname, hn, List.map_append, List.map_replicate,
      List.append_assoc]
    refine walk_append_congr (fun here => ?_) _ here
    exact (tree.walk_dots here n name []).symm
  have hnull : '\x00' ∈ (directory.trimmed.join ⟨name⟩).text.toList ↔
      '\x00' ∈ (directory.join ⟨name⟩).text.toList := by
    rw [Path.join_text hname, Path.join_text hname, List.mem_append, List.mem_append,
      Path.mem_base_trimmed (by decide) (by decide)]
  have hnonempty (holder : Path) : (holder.join ⟨name⟩).text ≠ "" := by
    intro h
    have htext := congrArg String.toList h
    rw [Path.join_text hname] at htext
    exact hname.nonempty (List.append_eq_nil_iff.mp htext).2
  have hlocate : tree.locate (directory.trimmed.join ⟨name⟩) =
      tree.locate (directory.join ⟨name⟩) := by
    unfold locate
    simp only [hnull, hnonempty, if_false, horigin, hwalk]
  rw [readFile, readFile, hlocate]

end Tree

end Stubgen.Files
