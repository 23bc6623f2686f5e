import Mathlib.Data.List.Nodup
import Stubgen.Override.Reading

/-!
# Override files in depth-first order

Going through override files in depth-first order means to go through the blocks of a file when it
is reached for the first time, and to go through the files that a block names, in their order, where
the block stands. A file that has been reached before brings nothing. What is met on the way is
recorded in a log. Every tree has one and only one such log for a path, whatever the files include,
and reading the override files follows it up to the first path that cannot be read.
-/

namespace Stubgen

open Files (Key OsError Path Tree)

/-- Whether a block includes other files. -/
def OverrideBlock.isInclude : OverrideBlock → Bool
  | .include _ => true
  | _ => false

/-- The blocks of the file at a key that include nothing. -/
def Files.Tree.ownBlocks (tree : Tree) (key : Key) : List OverrideBlock :=
  match tree.node? key with
  | some (.file content) =>
    (OverrideBlock.ofText (Text.decodeLenient content)).filter fun block => !block.isInclude
  | _ => []

/-- With more keys, no more nodes lie outside. -/
theorem Files.Tree.outside_le_of_subset (tree : Tree) {keys more : List Key} (h : keys ⊆ more) :
    tree.outside more ≤ tree.outside keys := by
  refine List.Sublist.length_le (List.monotone_filter_right _ fun entry hentry => ?_)
  exact decide_eq_true fun hmem => of_decide_eq_true hentry (h hmem)

namespace OverrideReading

/-- What is met on the way through override files. -/
inductive Encounter where
  /-- A file that is reached for the first time. -/
  | enter (key : Key)
  /-- A block of a file that includes nothing. -/
  | block (key : Key) (block : OverrideBlock)
  /-- A path that cannot be read. -/
  | unreadable (path : Path) (e : OsError)

namespace Encounter

/-- The key of a file that is entered. -/
def entered? : Encounter → Option Key
  | enter key => some key
  | _ => none

/-- The block that is met. -/
def block? : Encounter → Option OverrideBlock
  | block _ found => some found
  | _ => none

/-- The block that is met in the file at a key. -/
def blockAt? (key : Key) : Encounter → Option OverrideBlock
  | block other found => if other = key then some found else none
  | _ => none

/-- The reason why a path cannot be read. -/
def failure? : Encounter → Option OsError
  | unreadable _ e => some e
  | _ => none

end Encounter

/-- What there is to go through. -/
inductive Agenda where
  /-- The files that paths lead to. -/
  | files (paths : List Path)
  /-- Blocks of a file, with its key and its directory. -/
  | blocks (key : Key) (directory : Path) (blocks : List OverrideBlock)

/-- The keys of the files that are entered. -/
def entered (log : List Encounter) : List Key :=
  log.filterMap Encounter.entered?

/-- The blocks that are met. -/
def blocksOf (log : List Encounter) : List OverrideBlock :=
  log.filterMap Encounter.block?

/-- The blocks that are met in the file at a key. -/
def blocksAt (key : Key) (log : List Encounter) : List OverrideBlock :=
  log.filterMap (Encounter.blockAt? key)

/-- The keys that have been seen, the latest first, after what a log tells. -/
def seenAfter (seen : List Key) (log : List Encounter) : List Key :=
  (entered log).reverse ++ seen

/-- The log of going through an agenda in depth-first order, after some files have been seen. -/
inductive DepthFirst (tree : Tree) : List Key → Agenda → List Encounter → Prop
  | noFile (seen : List Key) : DepthFirst tree seen (.files []) []
  /-- A path that cannot be read brings nothing. -/
  | unreadable {seen : List Key} {path : Path} {paths : List Path} {e : OsError}
      {log : List Encounter} (hread : tree.readFile path = .error e)
      (hlog : DepthFirst tree seen (.files paths) log) :
      DepthFirst tree seen (.files (path :: paths)) (.unreadable path e :: log)
  /-- A file that has been seen brings nothing. -/
  | again {seen : List Key} {path : Path} {paths : List Path} {key : Key} {content : ByteArray}
      {log : List Encounter} (hread : tree.readFile path = .ok (key, content)) (hkey : key ∈ seen)
      (hlog : DepthFirst tree seen (.files paths) log) :
      DepthFirst tree seen (.files (path :: paths)) log
  /-- Any other file brings its blocks. -/
  | first {seen : List Key} {path : Path} {paths : List Path} {key : Key} {content : ByteArray}
      {inner log : List Encounter} (hread : tree.readFile path = .ok (key, content))
      (hkey : key ∉ seen)
      (hinner : DepthFirst tree (key :: seen)
        (.blocks key path.directory (OverrideBlock.ofText (Text.decodeLenient content))) inner)
      (hlog : DepthFirst tree (seenAfter (key :: seen) inner) (.files paths) log) :
      DepthFirst tree seen (.files (path :: paths)) (.enter key :: inner ++ log)
  | noBlock (seen : List Key) (key : Key) (directory : Path) :
      DepthFirst tree seen (.blocks key directory []) []
  /-- An include brings what its targets bring. -/
  | targets {seen : List Key} {key : Key} {directory : Path} {names : List String}
      {blocks : List OverrideBlock} {inner log : List Encounter}
      (hinner : DepthFirst tree seen (.files (names.map fun name => directory.join ⟨name⟩)) inner)
      (hlog : DepthFirst tree (seenAfter seen inner) (.blocks key directory blocks) log) :
      DepthFirst tree seen (.blocks key directory (.include names :: blocks)) (inner ++ log)
  /-- Any other block is met itself. -/
  | own {seen : List Key} {key : Key} {directory : Path} {block : OverrideBlock}
      {blocks : List OverrideBlock} {log : List Encounter} (hown : block.isInclude = false)
      (hlog : DepthFirst tree seen (.blocks key directory blocks) log) :
      DepthFirst tree seen (.blocks key directory (block :: blocks)) (.block key block :: log)

variable {tree : Tree} {seen : List Key} {agenda : Agenda} {path : Path} {log : List Encounter}

/-! ## There is one and only one log -/

/-- What is entered in one log and then another. -/
theorem entered_append (log more : List Encounter) :
    entered (log ++ more) = entered log ++ entered more :=
  List.filterMap_append

/-- What has been seen after one log and then another. -/
theorem seenAfter_append (seen : List Key) (log more : List Encounter) :
    seenAfter seen (log ++ more) = seenAfter (seenAfter seen log) more := by
  rw [seenAfter, entered_append, List.reverse_append, List.append_assoc]
  rfl

/-- What has been seen stays seen. -/
theorem subset_seenAfter (seen : List Key) (log : List Encounter) : seen ⊆ seenAfter seen log :=
  List.subset_append_right _ _

/-- There is no more than one log of an agenda. -/
theorem DepthFirst.unique (h : DepthFirst tree seen agenda log) {other : List Encounter}
    (hother : DepthFirst tree seen agenda other) : other = log := by
  induction h generalizing other with
  | noFile seen =>
    cases hother with
    | noFile => rfl
  | unreadable hread _ ih =>
    cases hother with
    | unreadable hread' hlog' =>
      rw [hread] at hread'
      cases hread'
      rw [ih hlog']
    | again hread' => rw [hread] at hread'; cases hread'
    | first hread' => rw [hread] at hread'; cases hread'
  | again hread hkey _ ih =>
    cases hother with
    | unreadable hread' => rw [hread] at hread'; cases hread'
    | again _ _ hlog' => exact ih hlog'
    | first hread' hkey' =>
      rw [hread] at hread'
      cases hread'
      contradiction
  | first hread hkey _ _ ihinner ihlog =>
    cases hother with
    | unreadable hread' => rw [hread] at hread'; cases hread'
    | again hread' hkey' =>
      rw [hread] at hread'
      cases hread'
      contradiction
    | first hread' _ hinner' hlog' =>
      rw [hread] at hread'
      cases hread'
      obtain rfl := ihinner hinner'
      rw [ihlog hlog']
  | noBlock seen key directory =>
    cases hother with
    | noBlock => rfl
  | targets _ _ ihinner ihlog =>
    cases hother with
    | targets hinner' hlog' =>
      obtain rfl := ihinner hinner'
      rw [ihlog hlog']
    | own hown' => contradiction
  | own hown _ ih =>
    cases hother with
    | targets => contradiction
    | own _ hlog' => rw [ih hlog']

/-- Files have a log if the blocks of every file that has not been seen have one. -/
theorem exists_log_files (paths : List Path) (seen : List Key)
    (hblocks : ∀ path key content, tree.readFile path = .ok (key, content) →
      ∀ now, seen ⊆ now → key ∉ now → ∃ log, DepthFirst tree (key :: now)
        (.blocks key path.directory (OverrideBlock.ofText (Text.decodeLenient content))) log) :
    ∃ log, DepthFirst tree seen (.files paths) log := by
  induction paths generalizing seen with
  | nil => exact ⟨[], .noFile seen⟩
  | cons path paths ih =>
    cases hread : tree.readFile path with
    | error e =>
      obtain ⟨log, hlog⟩ := ih seen hblocks
      exact ⟨_, .unreadable hread hlog⟩
    | ok found =>
      obtain ⟨key, content⟩ := found
      by_cases hkey : key ∈ seen
      · obtain ⟨log, hlog⟩ := ih seen hblocks
        exact ⟨log, .again hread hkey hlog⟩
      · obtain ⟨inner, hinner⟩ := hblocks path key content hread seen (List.Subset.refl _) hkey
        have hsubset : seen ⊆ seenAfter (key :: seen) inner :=
          List.Subset.trans (List.subset_cons_self key seen) (subset_seenAfter _ inner)
        obtain ⟨log, hlog⟩ := ih (seenAfter (key :: seen) inner)
          fun path key content hread now hnow =>
            hblocks path key content hread now (List.Subset.trans hsubset hnow)
        exact ⟨_, .first hread hkey hinner hlog⟩

/-- Every agenda has a log: with every file that is entered, fewer files are left that have not been
seen. -/
theorem exists_log (tree : Tree) (seen : List Key) (agenda : Agenda) :
    ∃ log, DepthFirst tree seen agenda log := by
  induction hn : tree.outside seen using Nat.strongRecOn generalizing seen agenda with
  | ind n ih =>
    subst hn
    have hfiles (paths : List Path) (now : List Key) (hnow : seen ⊆ now) :
        ∃ log, DepthFirst tree now (.files paths) log :=
      exists_log_files paths now fun path key content hread later hlater hkey =>
        ih _ (Nat.lt_of_lt_of_le (Tree.outside_cons_lt hread hkey)
          (tree.outside_le_of_subset (List.Subset.trans hnow hlater))) _ _ rfl
    cases agenda with
    | files paths => exact hfiles paths seen (List.Subset.refl _)
    | blocks key directory blocks =>
      have hall (now : List Key) (hnow : seen ⊆ now) :
          ∃ log, DepthFirst tree now (.blocks key directory blocks) log := by
        induction blocks generalizing now with
        | nil => exact ⟨[], .noBlock now key directory⟩
        | cons block blocks ihblocks =>
          cases block with
          | «include» names =>
            obtain ⟨inner, hinner⟩ := hfiles (names.map fun name => directory.join ⟨name⟩) now hnow
            obtain ⟨log, hlog⟩ := ihblocks _ (List.Subset.trans hnow (subset_seenAfter now inner))
            exact ⟨_, .targets hinner hlog⟩
          | _ =>
            obtain ⟨log, hlog⟩ := ihblocks now hnow
            exact ⟨_, .own rfl hlog⟩
      exact hall seen (List.Subset.refl _)

/-! ## Every file is entered once -/

/-- A file that is entered is the first one of what follows. -/
theorem entered_enter (key : Key) (log : List Encounter) :
    entered (.enter key :: log) = key :: entered log :=
  rfl

/-- What has been seen after a file is entered and a log is followed. -/
theorem seenAfter_enter (seen : List Key) (key : Key) (log : List Encounter) :
    seenAfter seen (.enter key :: log) = seenAfter (key :: seen) log := by
  rw [seenAfter, entered_enter, List.reverse_cons, List.append_assoc]
  rfl

/-- A file has been seen if it had been seen before or is entered. -/
theorem mem_seenAfter_iff {key : Key} :
    key ∈ seenAfter seen log ↔ key ∈ entered log ∨ key ∈ seen := by
  rw [seenAfter, List.mem_append, List.mem_reverse]

/-- No file is entered that has been seen, and none is entered twice. -/
theorem DepthFirst.nodup_seenAfter (h : DepthFirst tree seen agenda log) (hseen : seen.Nodup) :
    (seenAfter seen log).Nodup := by
  induction h with
  | noFile seen => exact hseen
  | unreadable _ _ ih => exact ih hseen
  | again _ _ _ ih => exact ih hseen
  | first _ hkey _ _ ihinner ihlog =>
    rw [seenAfter_append, seenAfter_enter]
    exact ihlog (ihinner (List.nodup_cons.mpr ⟨hkey, hseen⟩))
  | noBlock seen key directory => exact hseen
  | targets _ _ ihinner ihlog =>
    rw [seenAfter_append]
    exact ihlog (ihinner hseen)
  | own _ _ ih => exact ih hseen

/-- Every file that is entered is one file less that has not been seen. -/
theorem DepthFirst.length_entered_add_outside_le (h : DepthFirst tree seen agenda log) :
    (entered log).length + tree.outside (seenAfter seen log) ≤ tree.outside seen := by
  induction h with
  | noFile seen => exact Nat.le_of_eq (Nat.zero_add _)
  | unreadable _ _ ih => exact ih
  | again _ _ _ ih => exact ih
  | first hread hkey _ _ ihinner ihlog =>
    have hless := Tree.outside_cons_lt hread hkey
    rw [seenAfter_append, seenAfter_enter, entered_append, entered_enter, List.length_append,
      List.length_cons]
    omega
  | noBlock seen key directory => exact Nat.le_of_eq (Nat.zero_add _)
  | targets _ _ ihinner ihlog =>
    rw [seenAfter_append, entered_append, List.length_append]
    omega
  | own _ _ ih => exact ih

/-- What there is to go through of the file at a key. -/
def Agenda.blocksAt (key : Key) : Agenda → List OverrideBlock
  | files _ => []
  | blocks other _ left => if other = key then left.filter fun block => !block.isInclude else []

/-- What is gone through is files, or blocks of a file that has been seen. -/
def Agenda.IsOpen (seen : List Key) : Agenda → Prop
  | files _ => True
  | blocks key _ _ => key ∈ seen

/-- The blocks of a file that is read are those of the file at its key. -/
theorem ownBlocks_of_readFile {key : Key} {content : ByteArray}
    (hread : tree.readFile path = .ok (key, content)) :
    tree.ownBlocks key =
      (OverrideBlock.ofText (Text.decodeLenient content)).filter fun block => !block.isInclude := by
  rw [Tree.ownBlocks, Tree.node?_of_readFile hread]

/-- What is met of a file in one log and then another. -/
theorem blocksAt_append (key : Key) (log more : List Encounter) :
    blocksAt key (log ++ more) = blocksAt key log ++ blocksAt key more :=
  List.filterMap_append

/-- Of a file that has been seen, the blocks that are left to go through are met. -/
theorem DepthFirst.blocksAt_of_seen (h : DepthFirst tree seen agenda log) {key : Key}
    (hkey : key ∈ seen) : blocksAt key log = agenda.blocksAt key := by
  induction h with
  | noFile seen => rfl
  | unreadable _ _ ih => exact ih hkey
  | again _ _ _ ih => exact ih hkey
  | @first seen path paths entering content inner log _ hnew _ _ ihinner ihlog =>
    have hother : entering ≠ key := (ne_of_mem_of_not_mem hkey hnew).symm
    have hinner : blocksAt key (.enter entering :: inner) = [] :=
      (ihinner (List.mem_cons_of_mem _ hkey)).trans (if_neg hother)
    rw [blocksAt_append, hinner, ihlog (subset_seenAfter _ _ (List.mem_cons_of_mem _ hkey))]
    rfl
  | noBlock seen other directory => exact (ite_self []).symm
  | @targets seen other directory names blocks inner log _ _ ihinner ihlog =>
    rw [blocksAt_append, ihinner hkey, ihlog (subset_seenAfter _ _ hkey)]
    rfl
  | @own seen other directory block blocks log hown _ ih =>
    by_cases heq : other = key
    · have hmet : Encounter.blockAt? key (.block other block) = some block := if_pos heq
      have hlog : blocksAt key log = blocks.filter fun block => !block.isInclude :=
        (ih hkey).trans (if_pos heq)
      have hleft : (Agenda.blocks other directory (block :: blocks)).blocksAt key =
          block :: blocks.filter fun block => !block.isInclude :=
        (if_pos heq).trans (List.filter_cons_of_pos (by simp [hown]))
      rw [hleft, ← hlog]
      exact List.filterMap_cons_some hmet
    · have hmet : Encounter.blockAt? key (.block other block) = none := if_neg heq
      have hlog : blocksAt key log = [] := (ih hkey).trans (if_neg heq)
      exact ((List.filterMap_cons_none hmet).trans hlog).trans (if_neg heq).symm

/-- If a file is either entered in one part of a log or comes to be met in the next one, its blocks
are met once. -/
theorem blocksAt_join {key : Key} {inner log : List Encounter} {blocks : List OverrideBlock}
    (hinner : blocksAt key inner = if key ∈ entered inner then blocks else [])
    (hseen : key ∈ seenAfter seen inner → blocksAt key log = [])
    (hnew : key ∉ seenAfter seen inner →
      blocksAt key log = if key ∈ entered log then blocks else [])
    (hkey : key ∉ seen) :
    blocksAt key (inner ++ log) = if key ∈ entered (inner ++ log) then blocks else [] := by
  have hentered : key ∈ entered (inner ++ log) ↔ key ∈ entered inner ∨ key ∈ entered log := by
    rw [entered_append, List.mem_append]
  rw [blocksAt_append, hinner]
  by_cases hin : key ∈ entered inner
  · rw [if_pos hin, if_pos (hentered.mpr (.inl hin)), hseen (mem_seenAfter_iff.mpr (.inl hin)),
      List.append_nil]
  · have hafter : key ∉ seenAfter seen inner := fun hmem =>
      (mem_seenAfter_iff.mp hmem).elim hin hkey
    rw [if_neg hin, hnew hafter, List.nil_append]
    simp only [hentered, hin, false_or]

/-- Of a file that has not been seen, its own blocks are met if it is entered, and otherwise
none. -/
theorem DepthFirst.blocksAt_of_new (h : DepthFirst tree seen agenda log)
    (hopen : agenda.IsOpen seen) {key : Key} (hkey : key ∉ seen) :
    blocksAt key log = if key ∈ entered log then tree.ownBlocks key else [] := by
  induction h with
  | noFile seen => rfl
  | unreadable _ _ ih => exact ih hopen hkey
  | again _ _ _ ih => exact ih hopen hkey
  | @first seen path paths entering content inner log hread hnew hin hafter ihinner ihlog =>
    have henter : blocksAt key (.enter entering :: inner) =
        if key ∈ entered (.enter entering :: inner) then tree.ownBlocks key else [] := by
      have hentered : key ∈ entered (.enter entering :: inner) ↔
          key = entering ∨ key ∈ entered inner := List.mem_cons
      by_cases heq : key = entering
      · subst heq
        rw [if_pos (hentered.mpr (.inl rfl)), ownBlocks_of_readFile hread]
        exact (hin.blocksAt_of_seen List.mem_cons_self).trans (if_pos rfl)
      · have hinner := ihinner List.mem_cons_self (List.not_mem_cons_of_ne_of_not_mem heq hkey)
        simp only [hentered, heq, false_or]
        exact hinner
    refine blocksAt_join henter (fun hmem => ?_) (fun hmem => ?_) hkey
    · rw [seenAfter_enter] at hmem
      exact hafter.blocksAt_of_seen hmem
    · rw [seenAfter_enter] at hmem
      exact ihlog trivial hmem
  | noBlock seen other directory => rfl
  | @targets seen other directory names blocks inner log hin hafter ihinner ihlog =>
    have hother : Agenda.IsOpen (seenAfter seen inner) (.blocks other directory blocks) :=
      subset_seenAfter seen inner hopen
    refine blocksAt_join (ihinner trivial hkey) (fun hmem => ?_) (ihlog hother) hkey
    refine (hafter.blocksAt_of_seen hmem).trans (if_neg ?_)
    exact ne_of_mem_of_not_mem hopen hkey
  | @own seen other directory block blocks log hown _ ih =>
    have hother : Encounter.blockAt? key (.block other block) = none :=
      if_neg (ne_of_mem_of_not_mem hopen hkey)
    exact (List.filterMap_cons_none hother).trans (ih hopen hkey)

/-! ## Reading follows the log -/

/-- The tasks of reading what there is to go through. -/
def Agenda.tasks : Agenda → List OverrideTask
  | files paths => paths.map .readFile
  | blocks _ directory left => left.flatMap (tasksOf directory)

/-- The reading after something has been met. -/
def meet (reading : OverrideReading) : Encounter → OverrideReading
  | .enter key => { reading with visited := key :: reading.visited }
  | .block _ block => reading.add block
  | .unreadable _ _ => reading

/-- The reading after a log has been followed. -/
def follow (reading : OverrideReading) (log : List Encounter) : OverrideReading :=
  log.foldl meet reading

/-- The part of a log before the first path that cannot be read. -/
def readable (log : List Encounter) : List Encounter :=
  log.takeWhile fun encounter => encounter.failure?.isNone

/-- Why the first path that cannot be read cannot be read. -/
def firstFailure? (log : List Encounter) : Option OsError :=
  log.findSome? Encounter.failure?

/-- What comes of a reading that follows a log and then finishes, unless a path of the log cannot be
read. -/
def outcome (finish : OverrideReading → OverrideReading × Option Error) (reading : OverrideReading)
    (log : List Encounter) : OverrideReading × Option Error :=
  match firstFailure? log with
  | none => finish (reading.follow log)
  | some e => (reading.follow (readable log), some (.os e))

variable {reading : OverrideReading}
  {finish other : OverrideReading → OverrideReading × Option Error}

/-- The files that have been visited are those that have been seen. -/
theorem visited_follow (reading : OverrideReading) (log : List Encounter) :
    (reading.follow log).visited = seenAfter reading.visited log := by
  induction log generalizing reading with
  | nil => rfl
  | cons encounter log ih =>
    refine (ih (reading.meet encounter)).trans ?_
    cases encounter with
    | enter key => exact (seenAfter_enter reading.visited key log).symm
    | block key block => rfl
    | unreadable path e => rfl

/-- The blocks that are met are added in their order. -/
theorem set_follow (reading : OverrideReading) (log : List Encounter) :
    (reading.follow log).set = (blocksOf log).foldl OverrideSet.add reading.set := by
  induction log generalizing reading with
  | nil => rfl
  | cons encounter log ih =>
    refine (ih (reading.meet encounter)).trans ?_
    cases encounter with
    | enter key => rfl
    | block key block => rfl
    | unreadable path e => rfl

/-- The readable part of a log ends before a path that cannot be read. -/
theorem readable_append_of_failure {before : List Encounter} {encounter : Encounter} {e : OsError}
    (hbefore : ∀ earlier ∈ before, earlier.failure? = none) (hfailure : encounter.failure? = some e)
    (after : List Encounter) : readable (before ++ encounter :: after) = before := by
  have hreadable : ∀ earlier ∈ before, earlier.failure?.isNone = true := fun earlier hmem =>
    Option.isNone_iff_eq_none.mpr (hbefore earlier hmem)
  rw [readable, List.takeWhile_append_of_pos hreadable,
    List.takeWhile_cons_of_neg (by simp [hfailure]), List.append_nil]

/-- A log is followed to its end before the next one. -/
theorem outcome_append (finish : OverrideReading → OverrideReading × Option Error)
    (reading : OverrideReading) (log more : List Encounter) :
    outcome finish reading (log ++ more) =
      outcome (fun reading => outcome finish reading more) reading log := by
  have happend : firstFailure? (log ++ more) = (firstFailure? log).or (firstFailure? more) :=
    List.findSome?_append
  unfold outcome
  rw [happend]
  cases hlog : firstFailure? log with
  | none =>
    have hreadable : ∀ encounter ∈ log, encounter.failure?.isNone = true := fun encounter hmem =>
      Option.isNone_iff_eq_none.mpr (List.findSome?_eq_none_iff.mp hlog encounter hmem)
    have hlater : readable (log ++ more) = log ++ readable more :=
      List.takeWhile_append_of_pos hreadable
    rw [Option.none_or, hlater]
    unfold follow
    rw [List.foldl_append, List.foldl_append]
  | some e =>
    obtain ⟨before, encounter, after, rfl, hfailure, hbefore⟩ := List.findSome?_eq_some_iff.mp hlog
    rw [Option.some_or, List.append_assoc, List.cons_append,
      readable_append_of_failure hbefore hfailure, readable_append_of_failure hbefore hfailure]

/-- How a reading finishes matters only for the log that has been followed. -/
theorem outcome_congr (h : finish (reading.follow log) = other (reading.follow log)) :
    outcome finish reading log = outcome other reading log := by
  unfold outcome
  split
  · exact h
  · rfl

/-- A reading that finishes by following another log follows the two logs together. -/
theorem outcome_trans {more : List Encounter}
    (h : finish (reading.follow log) = outcome other (reading.follow log) more) :
    outcome finish reading log = outcome other reading (log ++ more) := by
  rw [outcome_append]
  exact outcome_congr h

/-- Reading what there is to go through follows its log. -/
theorem DepthFirst.run_eq (h : DepthFirst tree seen agenda log) (hseen : reading.visited = seen)
    (rest : List OverrideTask) :
    reading.run tree (agenda.tasks ++ rest) =
      outcome (fun reading => reading.run tree rest) reading log := by
  induction h generalizing reading rest with
  | noFile seen => rfl
  | unreadable hread _ ih => exact run_of_unreadable hread
  | again hread hkey _ ih =>
    exact (run_of_visited hread (hseen ▸ hkey)).trans (ih hseen rest)
  | @first seen path paths key content inner log hread hkey _ _ ihinner ihlog =>
    let entering : OverrideReading := { reading with visited := key :: reading.visited }
    have hvisited : entering.visited = key :: seen := congrArg _ hseen
    have hlater : (entering.follow inner).run tree ((Agenda.files paths).tasks ++ rest) =
        outcome (fun reading => reading.run tree rest) (entering.follow inner) log :=
      ihlog (by rw [visited_follow, hvisited]) rest
    calc
      _ = entering.run tree (tasksOfText path (Text.decodeLenient content) ++
            ((Agenda.files paths).tasks ++ rest)) := run_of_new hread (hseen ▸ hkey)
      _ = outcome (fun reading => reading.run tree ((Agenda.files paths).tasks ++ rest)) entering
            inner := ihinner hvisited _
      _ = outcome (fun reading => reading.run tree rest) entering (inner ++ log) :=
          outcome_trans hlater
  | noBlock seen key directory => rfl
  | @targets seen key directory names blocks inner log _ _ ihinner ihlog =>
    let targets := Agenda.files (names.map fun name => directory.join ⟨name⟩)
    let others := Agenda.blocks key directory blocks
    have htasks : (Agenda.blocks key directory (.include names :: blocks)).tasks ++ rest =
        targets.tasks ++ (others.tasks ++ rest) := by
      have hnames : tasksOf directory (.include names) = targets.tasks := List.map_map.symm
      rw [← hnames, ← List.append_assoc]
      rfl
    have hlater : (reading.follow inner).run tree (others.tasks ++ rest) =
        outcome (fun reading => reading.run tree rest) (reading.follow inner) log :=
      ihlog (by rw [visited_follow, hseen]) rest
    calc
      _ = reading.run tree (targets.tasks ++ (others.tasks ++ rest)) := by rw [htasks]
      _ = outcome (fun reading => reading.run tree (others.tasks ++ rest)) reading inner :=
          ihinner hseen _
      _ = outcome (fun reading => reading.run tree rest) reading (inner ++ log) :=
          outcome_trans hlater
  | @own seen key directory block blocks log hown _ ih =>
    have htasks : tasksOf directory block = [.addBlock block] := by
      cases block with
      | «include» names => contradiction
      | _ => rfl
    rw [Agenda.tasks, List.flatMap_cons, htasks, List.append_assoc, List.singleton_append, run]
    have hvisited : (reading.add block).visited = seen := hseen
    exact ih hvisited rest

/-- There is one and only one way through override files in depth-first order, whatever they
include. It enters no file twice, and so no more files than there are, and of every file that it
enters it meets each block once. Reading the files follows it: the blocks are added in this order,
unless a path that is met cannot be read, and then the first of these paths tells the error. -/
theorem readOverrides_depth_first (tree : Tree) (path : Path) :
    ∃ log, DepthFirst tree [] (.files [path]) log ∧
      (∀ other, DepthFirst tree [] (.files [path]) other → other = log) ∧
      (entered log).Nodup ∧ (entered log).length ≤ tree.nodes.length ∧
      (∀ key, blocksAt key log = if key ∈ entered log then tree.ownBlocks key else []) ∧
      match readOverrides tree path with
      | (reading, none) =>
        (∀ encounter ∈ log, encounter.failure? = none) ∧
          reading.set = (blocksOf log).foldl OverrideSet.add .empty
      | (_, some error) =>
        ∃ before unread e after, log = before ++ .unreadable unread e :: after ∧
          (∀ encounter ∈ before, encounter.failure? = none) ∧ error = .os e := by
  obtain ⟨log, hlog⟩ := exists_log tree [] (.files [path])
  have hnodup : (entered log).Nodup := by
    have hseen := hlog.nodup_seenAfter List.nodup_nil
    rwa [seenAfter, List.append_nil, List.nodup_reverse] at hseen
  have hread : readOverrides tree path = outcome (fun reading => (reading, none)) start log := by
    refine (hlog.run_eq rfl []).trans (outcome_congr ?_)
    rw [run]
  have hlength : (entered log).length ≤ tree.nodes.length := by
    have hseen := hlog.length_entered_add_outside_le
    have hall : tree.outside [] ≤ tree.nodes.length := List.length_filter_le _ _
    omega
  refine ⟨log, hlog, fun other hother => hlog.unique hother, hnodup, hlength,
    fun key => hlog.blocksAt_of_new trivial List.not_mem_nil, ?_⟩
  rw [hread, outcome]
  cases hfailure : firstFailure? log with
  | none => exact ⟨List.findSome?_eq_none_iff.mp hfailure, set_follow start log⟩
  | some e =>
    obtain ⟨before, encounter, after, hsplit, he, hbefore⟩ :=
      List.findSome?_eq_some_iff.mp hfailure
    cases encounter with
    | enter key => cases he
    | block key block => cases he
    | unreadable unread reason =>
      obtain rfl : reason = e := Option.some.inj he
      exact ⟨before, unread, reason, after, hsplit, hbefore, rfl⟩

/-- A file that includes itself, also under another spelling of its path, is read once. -/
theorem readOverrides_depth_first_of_cycle :
    let text := "include ./gtk.override gtk.override\n%%\noverride gtk_main noargs\n"
    let tree : Tree := ⟨[(["gtk.override"], .file text.toUTF8)], []⟩
    ∃ reading, readOverrides tree ⟨"gtk.override"⟩ = (reading, none) ∧
      reading.set.wrappers.keys = ["gtk_main"] := by
  intro text tree
  have hblocks : OverrideBlock.ofText (Text.decodeLenient text.toUTF8) =
      [.include ["./gtk.override", "gtk.override"], .wrapper "gtk_main" ⟨.noArguments, ""⟩] := by
    have htext : Text.decodeLenient text.toUTF8 = text := by decide +kernel
    rw [htext]
    subst text
    rfl
  have hnames : ["./gtk.override", "gtk.override"].map
      (fun name => (Files.Path.mk "gtk.override").directory.join ⟨name⟩) =
        [⟨"./gtk.override"⟩, ⟨"gtk.override"⟩] := by decide +kernel
  have hread : ∀ path ∈ [Files.Path.mk "./gtk.override", Files.Path.mk "gtk.override"],
      tree.readFile path = .ok (["gtk.override"], text.toUTF8) := by decide +kernel
  have hinner : DepthFirst tree [["gtk.override"]]
      (.blocks ["gtk.override"] (Files.Path.mk "gtk.override").directory
        (OverrideBlock.ofText (Text.decodeLenient text.toUTF8)))
      [.block ["gtk.override"] (.wrapper "gtk_main" ⟨.noArguments, ""⟩)] := by
    have hagain : DepthFirst tree [["gtk.override"]]
        (.files [⟨"./gtk.override"⟩, ⟨"gtk.override"⟩]) [] :=
      .again (hread _ (by simp)) List.mem_cons_self
        (.again (hread _ (by simp)) List.mem_cons_self (.noFile _))
    rw [← hnames] at hagain
    rw [hblocks]
    exact hagain.targets (.own rfl (.noBlock _ _ _))
  have hlog : DepthFirst tree [] (.files [⟨"gtk.override"⟩])
      [.enter ["gtk.override"], .block ["gtk.override"] (.wrapper "gtk_main" ⟨.noArguments, ""⟩)] :=
    DepthFirst.first (hread ⟨"gtk.override"⟩ (by simp)) List.not_mem_nil hinner (.noFile _)
  obtain ⟨log, _, honly, _, _, _, hoverrides⟩ := readOverrides_depth_first tree ⟨"gtk.override"⟩
  obtain rfl := honly _ hlog
  generalize readOverrides tree ⟨"gtk.override"⟩ = read at hoverrides
  obtain ⟨reading, failure⟩ := read
  cases failure with
  | none =>
    obtain ⟨_, hset⟩ := hoverrides
    exact ⟨reading, rfl, by rw [hset]; rfl⟩
  | some error =>
    obtain ⟨before, unread, e, after, hsplit, _⟩ := hoverrides
    have hall : ∀ encounter ∈ before ++ .unreadable unread e :: after,
        encounter.failure? = none := hsplit ▸ by decide +kernel
    exact nomatch hall _ (List.mem_append_right before List.mem_cons_self)

end OverrideReading

end Stubgen
