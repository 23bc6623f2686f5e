import Stubgen.Proofs.Wrapper.Pieces

/-!
# The types that a format puts together

The translation of a format makes one type of every piece that is no modifier, and for a group it
calls itself on what stands inside. The calls are on shorter and shorter texts, so the translation
ends. A format whose brackets are all closed is translated independently of what follows it, what
stands between two brackets is translated on its own, and what comes out is made up of a few words
and of groups.
-/

namespace Stubgen.Wrapper

open Text (Brackets)

/-- The type of a piece. Modifiers have none. -/
def Piece.type? : Piece → Option String
  | .group inside closer =>
    some (groupType closer ++ "(" ++ ", ".intercalate (builtTypes inside) ++ ")")
  | .single c => if isModifier c then none else some ((letterType c).getD Tag.unspecified)

/-- Adds the type of a piece. The types inside a group are told by `translate`. -/
def addType (translate : List Char → Option (List String)) (types : List String) :
    Piece → Option (List String)
  | .group inside closer =>
    (translate inside).map fun members =>
      types ++ [groupType closer ++ "(" ++ ", ".intercalate members ++ ")"]
  | .single c =>
    some (if isModifier c then types else types ++ [(letterType c).getD Tag.unspecified])

/-- The translation of a format, scanned character by character. It calls itself for every group,
and it fails if there are more calls within each other than it is allowed. -/
def scanTypes : Nat → List Char → Option (List String)
  | 0, _ => none
  | calls + 1, format =>
    Scan.run (fun _ => false) (addType (scanTypes calls)) ⟨[], 0, []⟩ format

/-- The words for types that are no groups. -/
def typeWords : List String :=
  ["string", "unicode", "integer", "char", "float", "complex", "object", "unspecified"]

/-- The words for groups. -/
def groupWords : List String :=
  ["tuple", "list", "dict"]

/-- A type is a word, or a group of types between parentheses. -/
inductive IsType : String → Prop where
  | word {name : String} (hname : name ∈ typeWords) : IsType name
  | group {kind : String} {members : List String} (hkind : kind ∈ groupWords)
    (hmembers : ∀ member ∈ members, IsType member) :
    IsType (kind ++ "(" ++ ", ".intercalate members ++ ")")

variable {format front rest inside : List Char} {type : String} {opener closer : Char}

/-! ## Types and pieces -/

/-- The types of a format are those of its pieces. -/
theorem builtTypes_eq (format : List Char) :
    builtTypes format = (pieces format).filterMap Piece.type? := by
  fun_induction builtTypes format with
  | case1 => rfl
  | case2 c cs hopens hread => rw [pieces_cons_of_opening hopens, hread, List.filterMap_nil]
  | case3 c cs hopens group hread _ ihrest =>
    rw [pieces_cons_of_opening hopens, hread, ihrest]
    rfl
  | case4 c cs hopens hskipped ih =>
    rw [ih]
    by_cases hcloses : isClosing c = true
    · rw [pieces_cons_of_closing hopens hcloses]
    · have hmodifier : isModifier c = true := by simpa [hcloses] using hskipped
      have hnone : (Piece.single c).type? = none := if_pos hmodifier
      rw [pieces_cons_of_plain hopens hcloses, List.filterMap_cons_none hnone]
  | case5 c cs hopens hletter ih =>
    obtain ⟨hcloses, hmodifier⟩ : ¬isClosing c = true ∧ ¬isModifier c = true := by
      simpa using hletter
    have hsome : (Piece.single c).type? = some ((letterType c).getD Tag.unspecified) :=
      if_neg hmodifier
    rw [ih, pieces_cons_of_plain hopens hcloses, List.filterMap_cons_some hsome]

/-- Adding the types of pieces, when those inside of their groups are told right. -/
theorem addAll_addType {translate : List Char → Option (List String)} {pieces : List Piece}
    (hinside : ∀ inside closer, .group inside closer ∈ pieces →
      translate inside = some (builtTypes inside)) (types : List String) :
    addAll (fun _ => false) (addType translate) types pieces =
      some (types ++ pieces.filterMap Piece.type?) := by
  induction pieces generalizing types with
  | nil => rw [addAll, List.filterMap_nil, List.append_nil]
  | cons piece pieces ih =>
    have hadd : addType translate types piece = some (types ++ piece.type?.toList) := by
      cases piece with
      | group inside closer =>
        rw [addType, hinside inside closer List.mem_cons_self]
        rfl
      | single c =>
        rw [addType, Piece.type?]
        split
        · rw [Option.toList_none, List.append_nil]
        · rfl
    rw [addAll, if_neg Bool.false_ne_true, hadd, Option.bind_some,
      ih fun inside closer hmem => hinside inside closer (List.mem_cons_of_mem _ hmem),
      List.append_assoc, List.filterMap_cons]
    cases piece.type? <;> rfl

/-- The scan of a format ends when it may make as many calls within each other as the format has
characters, and one more. -/
theorem scanTypes_eq {calls : Nat} (hcalls : format.length < calls) :
    scanTypes calls format = some (builtTypes format) := by
  induction calls generalizing format with
  | zero => exact absurd hcalls (Nat.not_lt_zero _)
  | succ calls ih =>
    rw [scanTypes, Scan.run_eq, addAll_addType, builtTypes_eq]
    · rfl
    · intro inside closer hmem
      have hlt := length_lt_of_group_mem hmem
      rw [List.length_nil] at hlt
      exact ih (by omega)

/-! ## Composition -/

/-- The types of two formats, one after the other, are those of the first and then those of the
second, if all brackets of the first are closed. -/
theorem builtTypes_append (hends : formatBrackets.depthAfter 0 front = 0) (rest : List Char) :
    builtTypes (front ++ rest) = builtTypes front ++ builtTypes rest := by
  simp only [builtTypes_eq, pieces_append hends, List.filterMap_append]

/-- A text between brackets is one type. -/
theorem builtTypes_enclosed (hsettles : formatBrackets.Settles 0 inside)
    (hopens : isOpening opener = true) (hcloses : isClosing closer = true) :
    builtTypes (opener :: inside ++ [closer]) =
      [groupType closer ++ "(" ++ ", ".intercalate (builtTypes inside) ++ ")"] := by
  rw [builtTypes_eq, pieces_enclosed hsettles hopens hcloses]
  rfl

/-- A bracket that is not closed adds nothing, and nor does what stands behind it. -/
theorem builtTypes_unclosed (hends : formatBrackets.depthAfter 0 front = 0)
    (hopens : isOpening opener = true) (hnests : formatBrackets.Nests 0 inside) :
    builtTypes (front ++ opener :: inside) = builtTypes front := by
  rw [builtTypes_append hends, builtTypes_eq (opener :: inside), pieces_unclosed hnests hopens,
    List.filterMap_nil, List.append_nil]

/-! ## The form of types -/

/-- Every letter stands for a word. -/
theorem letterType_mem (c : Char) : (letterType c).getD Tag.unspecified ∈ typeWords := by
  unfold letterType
  split <;> decide

/-- Every bracket stands for a word. -/
theorem groupType_mem (closer : Char) : groupType closer ∈ groupWords := by
  unfold groupType
  split
  · decide
  split <;> decide

/-- What a format is translated to are types. -/
theorem isType_of_mem_builtTypes (hmem : type ∈ builtTypes format) : IsType type := by
  induction hlength : format.length using Nat.strongRecOn generalizing format type with
  | ind length ih =>
    rw [builtTypes_eq] at hmem
    obtain ⟨piece, hpiece, htype⟩ := List.mem_filterMap.mp hmem
    cases piece with
    | group inside closer =>
      obtain rfl := Option.some.inj htype
      have hlt := length_lt_of_group_mem hpiece
      rw [List.length_nil] at hlt
      refine .group (groupType_mem closer) fun member hmember => ?_
      exact ih inside.length (by omega) hmember rfl
    | single c =>
      rw [Piece.type?] at htype
      split at htype
      · exact nomatch htype
      · obtain rfl := Option.some.inj htype
        exact .word (letterType_mem c)

/-- Text without brackets settles. -/
theorem settles_of_all_plain {text : List Char}
    (h : text.all (fun c => !isOpening c && !isClosing c) = true) :
    formatBrackets.Settles 0 text := by
  have hchars := List.all_eq_true.mp h
  simp only [Bool.and_eq_true, Bool.not_eq_true'] at hchars
  exact Brackets.settles_of_plain (fun c hc => (hchars c hc).1) fun c hc => (hchars c hc).2

/-- The brackets of a type are closed in the end, and none is closed that was not opened. -/
theorem IsType.settles (htype : IsType type) : formatBrackets.Settles 0 type.toList := by
  induction htype with
  | word hname =>
    have hall : ∀ name ∈ typeWords,
        name.toList.all (fun c => !isOpening c && !isClosing c) = true := by decide
    exact settles_of_all_plain (hall _ hname)
  | @group kind members hkind hmembers ih =>
    have hall : ∀ kind ∈ groupWords,
        kind.toList.all (fun c => !isOpening c && !isClosing c) = true := by decide
    have hseparator : formatBrackets.Settles 0 ", ".toList := settles_of_all_plain (by decide)
    have hinside : formatBrackets.Settles 0 (", ".intercalate members).toList := by
      rw [String.toList_intercalate]
      refine Brackets.settles_intercalate hseparator fun text htext => ?_
      obtain ⟨member, hmember, rfl⟩ := List.mem_map.mp htext
      exact ih member hmember
    have henclosed := hinside.enclosed (show formatBrackets.opens '(' = true from rfl)
      (show formatBrackets.closes ')' = true from rfl)
    simpa using (settles_of_all_plain (hall kind hkind)).append henclosed

/-! ## Translation -/

/-- The brackets that begin a group. -/
theorem isOpening_iff {c : Char} : isOpening c = true ↔ c ∈ ['(', '[', '\x7b'] := by
  simp [isOpening, or_assoc]

/-- The brackets that end a group. -/
theorem isClosing_iff {c : Char} : isClosing c = true ↔ c ∈ [')', ']', '\x7d'] := by
  simp [isClosing, or_assoc]

/-- The translation of every format ends. It is composed of the translations of its parts: formats
may follow each other if all brackets of the first are closed, a text between brackets becomes one
type, for which the bracket at its end decides, and a bracket that is not closed adds nothing. What
comes out are types, whose own brackets are closed. -/
theorem translation_composed :
    (∀ c, (formatBrackets.opens c = true ↔ c ∈ ['(', '[', '\x7b']) ∧
        (formatBrackets.closes c = true ↔ c ∈ [')', ']', '\x7d'])) ∧
      (∀ calls format, format.length < calls → scanTypes calls format = some (builtTypes format)) ∧
      (∀ front rest, formatBrackets.depthAfter 0 front = 0 →
        builtTypes (front ++ rest) = builtTypes front ++ builtTypes rest) ∧
      (∀ opener ∈ ['(', '[', '\x7b'], ∀ inside, formatBrackets.Settles 0 inside →
        let members := ", ".intercalate (builtTypes inside)
        builtTypes (opener :: inside ++ [')']) = ["tuple(" ++ members ++ ")"] ∧
          builtTypes (opener :: inside ++ [']']) = ["list(" ++ members ++ ")"] ∧
          builtTypes (opener :: inside ++ ['\x7d']) = ["dict(" ++ members ++ ")"]) ∧
      (∀ front, ∀ opener ∈ ['(', '[', '\x7b'], ∀ inside,
        formatBrackets.depthAfter 0 front = 0 → formatBrackets.Nests 0 inside →
          builtTypes (front ++ opener :: inside) = builtTypes front) ∧
      (∀ format, ∀ type ∈ builtTypes format,
        IsType type ∧ formatBrackets.Settles 0 type.toList) := by
  refine ⟨fun c => ⟨isOpening_iff, isClosing_iff⟩, fun calls format hcalls => scanTypes_eq hcalls,
    fun front rest hends => builtTypes_append hends rest, fun opener hopens inside hsettles => ?_,
    fun front opener hopens inside hends hnests =>
      builtTypes_unclosed hends (isOpening_iff.mpr hopens) hnests,
    fun format type hmem => ?_⟩
  · have henclosed {closer : Char} (hcloses : isClosing closer = true) :=
      builtTypes_enclosed hsettles (isOpening_iff.mpr hopens) hcloses
    exact ⟨henclosed rfl, henclosed rfl, henclosed rfl⟩
  · have htype := isType_of_mem_builtTypes hmem
    exact ⟨htype, htype.settles⟩

/-- Groups of all kinds in one group, which begin and end with brackets that do not go together. -/
theorem translation_composed_of_nested_groups :
    let inside := "s[ii]\x7bO)(z\x7d".toList
    formatBrackets.Settles 0 inside ∧
      builtTypes inside =
        ["string", "list(integer, integer)", "tuple(object)", "dict(string)"] ∧
      builtTypes ('[' :: inside ++ ['\x7d']) =
        ["dict(string, list(integer, integer), tuple(object), dict(string))"] := by
  intro inside
  have hletter : formatBrackets.Settles 0 ['s'] := settles_of_all_plain rfl
  have hgroup (opener closer : Char) (members : List Char)
      (hplain : members.all (fun c => !isOpening c && !isClosing c) = true)
      (hopens : formatBrackets.opens opener = true)
      (hcloses : formatBrackets.closes closer = true) :
      formatBrackets.Settles 0 (opener :: members ++ [closer]) :=
    (settles_of_all_plain hplain).enclosed hopens hcloses
  have hsettles : formatBrackets.Settles 0 inside :=
    ((hletter.append (hgroup '[' ']' "ii".toList rfl rfl rfl)).append
      (hgroup '\x7b' ')' ['O'] rfl rfl rfl)).append (hgroup '(' '\x7d' ['z'] rfl rfl rfl)
  have hinside : builtTypes inside =
      ["string", "list(integer, integer)", "tuple(object)", "dict(string)"] := by
    decide +kernel
  obtain ⟨-, -, -, henclosed, -⟩ := translation_composed
  have hdict := (henclosed '[' (by decide) inside hsettles).2.2
  rw [hinside] at hdict
  exact ⟨hsettles, hinside, hdict⟩

end Stubgen.Wrapper
