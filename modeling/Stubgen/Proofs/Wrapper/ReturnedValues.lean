import Stubgen.Override.Application
import Stubgen.Proofs.Wrapper.FirstReturn
import Stubgen.Proofs.Wrapper.UnknownTypes

/-!
# The values that stubs return for recovered types

An expression that a wrapper returns is understood by its form, and the form tells the tag of the
result. A stub returns a value for the tag: a literal, an empty collection, a marked text or the call
of a constructor. There is one tag for which it returns a bare name instead, which nothing defines.
It comes from a call that puts together just one value, by a letter that stands for no type.
-/

namespace Stubgen.Wrapper

open Tag (Placeholder Sense explicitValue)
open Text (isBlank trim trimmed)

/-- The beginning of a call that puts a value together. -/
def builder : List Char := "Py_BuildValue(".toList

/-- The sources of values that make use of no name of the stub. -/
def plainValues : List String :=
  ["0", "0.0", "0j", "1", "\"\"", "u\"\"", "()", "[]", "\x7b\x7d", "object()",
    "\"\"  # Unspecified type"]

/-- What a stub may return for the result of a wrapper: nothing, a value that makes use of no name
of the stub, or what the constructor of a collection makes. -/
inductive IsReturnable (shown : String → String) : Placeholder → Prop where
  | nothing : IsReturnable shown .nothing
  | plain {source : String} (hplain : source ∈ plainValues) : IsReturnable shown (.value source)
  | construction {kind : String} (hkind : kind ∈ groupWords) :
      IsReturnable shown (.value (shown kind ++ "()"))

/-- An expression is a call that puts its result together by a format. -/
structure IsBuiltBy (expr format : List Char) : Prop where
  begins : builder <+: trim expr
  noChoice : isTruthChoice (trim expr) = false
  argument : ∃ argument, firstArgument? (trim expr) = some argument ∧ unquote argument = format

/-- The forms of expressions that are understood, with what they tell. -/
inductive Understood (expr : List Char) : Result → Prop where
  | nothing : Understood expr (.tag Tag.nothing)
  | made {maker : String × String} (hmaker : maker ∈ makers) : Understood expr (.tag maker.2)
  | boxed (type : String) : Understood expr (.tag ("!object (GTYPE=" ++ type ++ ")"))
  | choice : Understood expr (.tag "gboolean")
  | built {format : List Char} (hbuilt : IsBuiltBy expr format) :
      Understood expr (builtResult format)

variable {expr format front other text : List Char} {result : Result} {tag type : String}

/-! ## Forms of expressions -/

/-- A text that begins in one way does not begin in another, unless one beginning continues the
other. -/
theorem not_prefix_of_prefix (hfront : front <+: text) (hshorter : ¬other <+: front)
    (hlonger : ¬front <+: other) : ¬other <+: text := by
  intro hother
  rcases List.prefix_or_prefix_of_prefix hother hfront with h | h
  · exact hshorter h
  · exact hlonger h

/-- An expression that is classified is of one of the forms that are understood. -/
theorem understood_of_classify? (hclassified : classify? expr = some result) :
    Understood expr result := by
  unfold classify? at hclassified
  dsimp only at hclassified
  split at hclassified
  · obtain rfl := Option.some.inj hclassified
    exact .nothing
  split at hclassified
  · next maker hfind =>
    obtain rfl := Option.some.inj hclassified
    exact .made (List.mem_of_find?_eq_some hfind)
  split at hclassified
  · obtain ⟨argument, _, rfl⟩ := Option.map_eq_some_iff.mp hclassified
    exact .boxed _
  split at hclassified
  · obtain rfl := Option.some.inj hclassified
    exact .choice
  · next hchoice =>
    split at hclassified
    · next hbegins =>
      obtain ⟨argument, hargument, rfl⟩ := Option.map_eq_some_iff.mp hclassified
      have hbuilt : IsBuiltBy expr (unquote argument) :=
        { begins := List.isPrefixOf_iff_prefix.mp hbegins
          noChoice := (Bool.not_eq_true _).mp hchoice
          argument := ⟨argument, hargument, rfl⟩ }
      exact .built hbuilt
    · exact nomatch hclassified

/-- A call that puts its result together is classified by its format. -/
theorem classify?_of_isBuiltBy (hbuilt : IsBuiltBy expr format) :
    classify? expr = some (builtResult format) := by
  obtain ⟨argument, hargument, rfl⟩ := hbuilt.argument
  have hother {beginning : List Char} (hshorter : ¬beginning <+: builder)
      (hlonger : ¬builder <+: beginning) : beginning.isPrefixOf (trim expr) = false := by
    rw [← Bool.not_eq_true, List.isPrefixOf_iff_prefix]
    exact not_prefix_of_prefix hbuilt.begins hshorter hlonger
  have hempty : trim expr ≠ emptyResult := by
    intro heq
    have hbegins := hbuilt.begins
    rw [heq] at hbegins
    exact absurd hbegins (by decide)
  have hmakers : makers.find? (fun maker => maker.1.toList.isPrefixOf (trim expr)) = none := by
    have hapart : ∀ maker ∈ makers, ¬maker.1.toList <+: builder ∧ ¬builder <+: maker.1.toList := by
      decide
    rw [List.find?_eq_none]
    intro maker hmaker hbegins
    rw [hother (hapart maker hmaker).1 (hapart maker hmaker).2] at hbegins
    exact nomatch hbegins
  have hboxed : "pyg_boxed_new(".toList.isPrefixOf (trim expr) = false :=
    hother (by decide) (by decide)
  have hbegins : "Py_BuildValue(".toList.isPrefixOf (trim expr) = true :=
    List.isPrefixOf_iff_prefix.mpr hbuilt.begins
  simp only [classify?, if_neg hempty, hmakers, hboxed, hbuilt.noChoice, hbegins, hargument,
    Bool.false_eq_true, if_false, if_true, Option.map_some]

/-- A call puts its result together by one format. -/
theorem IsBuiltBy.unique {otherFormat : List Char} (h : IsBuiltBy expr format)
    (hother : IsBuiltBy expr otherFormat) : format = otherFormat := by
  obtain ⟨argument, hargument, rfl⟩ := h.argument
  obtain ⟨otherArgument, hotherArgument, rfl⟩ := hother.argument
  obtain rfl := Option.some.inj (hargument.symm.trans hotherArgument)
  rfl

/-! ## Values of tags -/

/-- Whether the value of a sense makes use of no name but that of a collection. -/
def isValued : Sense → Bool
  | .anything | .callable => false
  | .explicit words => explicitValue words ∈ plainValues
  | .instanceOf nativeName => nativeName ∈ groupWords
  | .text | .character | .integer | .nothing | .boolean | .unspecified => true

/-- A stub may return the value of a tag with such a sense. -/
theorem isReturnable_of_isValued (shown : String → String)
    (hvalued : isValued (Tag.sense tag) = true) :
    IsReturnable shown (Tag.placeholder shown tag) := by
  unfold Tag.placeholder
  cases hsense : Tag.sense tag with
  | anything | callable =>
    rw [hsense] at hvalued
    exact nomatch hvalued
  | explicit words =>
    rw [hsense] at hvalued
    exact .plain (of_decide_eq_true hvalued)
  | instanceOf nativeName =>
    rw [hsense] at hvalued
    exact .construction (of_decide_eq_true hvalued)
  | nothing => exact .nothing
  | text | character | integer | boolean | unspecified => exact .plain (by decide)

/-- The words with which the types of collections and objects begin, with their values. -/
def collectionValues : List (String × String) :=
  [("tuple", "()"), ("list", "[]"), ("dict", "\x7b\x7d"), ("object", "object()")]

/-- A type that begins with such a word has its value. -/
theorem explicitValue_of_begins {words : String} {collection : String × String}
    (hcollection : collection ∈ collectionValues)
    (hbegins : collection.1.toList <+: words.toList) :
    explicitValue words = collection.2 := by
  have hbegin : collection.1.toList.isPrefixOf words.toList = true :=
    List.isPrefixOf_iff_prefix.mpr hbegins
  have hnot {other : String} (hshorter : ¬other.toList <+: collection.1.toList)
      (hlonger : ¬collection.1.toList <+: other.toList) :
      ¬other.toList.isPrefixOf words.toList = true := by
    rw [List.isPrefixOf_iff_prefix]
    exact not_prefix_of_prefix hbegins hshorter hlonger
  unfold explicitValue
  dsimp only
  simp only [collectionValues, List.mem_cons, List.not_mem_nil, or_false] at hcollection
  rcases hcollection with rfl | rfl | rfl | rfl
  · rw [if_pos hbegin]
  · rw [if_neg (hnot (by decide) (by decide)), if_pos hbegin]
  · rw [if_neg (hnot (by decide) (by decide)), if_neg (hnot (by decide) (by decide)),
      if_pos hbegin]
  · rw [if_neg (hnot (by decide) (by decide)), if_neg (hnot (by decide) (by decide)),
      if_neg (hnot (by decide) (by decide)), if_pos hbegin]

/-- A tag that spells such a type out has a value, with whatever it goes on. -/
theorem isValued_of_begins {collection : String × String}
    (hcollection : collection ∈ collectionValues)
    (hbegins : '!' :: collection.1.toList <+: tag.toList) : isValued (Tag.sense tag) = true := by
  have hletters : ∀ collection ∈ collectionValues,
      collection.1.toList ≠ [] ∧ collection.2 ∈ plainValues ∧
        ('!' :: collection.1.toList).all (fun c => !isBlank c) = true := by decide
  obtain ⟨hsome, hplain, hall⟩ := hletters collection hcollection
  obtain ⟨rest, hrest⟩ := Text.prefix_trim hbegins (Text.not_blank_of_all hall)
  obtain ⟨c, words, hwords⟩ : ∃ c words, collection.1.toList ++ rest = c :: words :=
    List.exists_cons_of_ne_nil fun hnil => hsome (List.append_eq_nil_iff.mp hnil).1
  have htrimmed : (trimmed tag).toList = '!' :: c :: words := by
    rw [trimmed, String.toList_ofList, ← hrest, List.cons_append, hwords]
  unfold Tag.sense
  rcases senseOf_of_explicit htrimmed with htext | hexplicit
  · rw [htext]
    rfl
  · have hstarts : collection.1.toList <+: (String.ofList (c :: words)).toList := by
      rw [String.toList_ofList, ← hwords]
      exact List.prefix_append _ _
    have hvalue := explicitValue_of_begins hcollection hstarts
    rw [hexplicit]
    refine decide_eq_true ?_
    rwa [hvalue]

/-- A type that is spelled out has a value, unless it is the unknown one. -/
theorem isValued_of_isType (htype : IsType type) (hknown : type ≠ Tag.unspecified) :
    isValued (Tag.sense ("!" ++ type)) = true := by
  cases htype with
  | word hname =>
    have hwords : ∀ word ∈ typeWords, word ≠ Tag.unspecified →
        isValued (Tag.sense ("!" ++ word)) = true := by decide +kernel
    exact hwords type hname hknown
  | @group kind members hkind _ =>
    have hkinds : ∀ kind ∈ groupWords, ∃ value, (kind, value) ∈ collectionValues := by
      intro kind hkind
      simp only [groupWords, List.mem_cons, List.not_mem_nil, or_false] at hkind
      rcases hkind with rfl | rfl | rfl
      · exact ⟨"()", by decide⟩
      · exact ⟨"[]", by decide⟩
      · exact ⟨"\x7b\x7d", by decide⟩
    obtain ⟨value, hvalue⟩ := hkinds kind hkind
    have hbegins : '!' :: kind.toList <+:
        ("!" ++ (kind ++ "(" ++ ", ".intercalate members ++ ")")).toList := by
      simp
    exact isValued_of_begins hvalue hbegins

/-! ## Values of results -/

/-- The unknown type that is spelled out has a bare name for its value. -/
theorem placeholder_unknown (shown : String → String) :
    Tag.placeholder shown "!unspecified" = .value Tag.unspecified := by
  have hsense : Tag.sense "!unspecified" = .explicit Tag.unspecified := by decide
  have hvalue : explicitValue Tag.unspecified = Tag.unspecified := by decide
  rw [Tag.placeholder, hsense]
  exact congrArg Placeholder.value hvalue

/-- A stub may not return this name. -/
theorem not_isReturnable_unknown (shown : String → String) :
    ¬IsReturnable shown (.value Tag.unspecified) := by
  intro hreturnable
  generalize hplaceholder : Placeholder.value Tag.unspecified = placeholder at hreturnable
  cases hreturnable with
  | nothing => exact nomatch hplaceholder
  | plain hplain =>
    obtain rfl := Placeholder.value.inj hplaceholder
    exact absurd hplain (by decide)
  | @construction kind _ =>
    have hsource := Placeholder.value.inj hplaceholder
    have hlast := congrArg (fun source : String => source.toList.getLast?) hsource
    simp [Tag.unspecified] at hlast

/-- A stub may return the value of what a format puts together, unless this is just one value of
unknown type. -/
theorem isReturnable_builtResult_iff (shown : String → String) (format : List Char) :
    IsReturnable shown (Tag.placeholder shown (builtResult format).toTag) ↔
      builtTypes format ≠ [Tag.unspecified] := by
  unfold builtResult
  split
  · next hnone =>
    rw [hnone]
    exact iff_of_true (isReturnable_of_isValued shown (by decide)) (by decide)
  · next type hone =>
    rw [hone, Result.toTag]
    by_cases hknown : type = Tag.unspecified
    · rw [hknown]
      refine iff_of_false ?_ fun hne => hne rfl
      have hbare := not_isReturnable_unknown shown
      rwa [← placeholder_unknown shown] at hbare
    · have hmem : type ∈ builtTypes format := by rw [hone, List.mem_singleton]
      have hvalued := isValued_of_isType (isType_of_mem_builtTypes hmem) hknown
      exact iff_of_true (isReturnable_of_isValued shown hvalued) fun heq =>
        hknown (List.singleton_inj.mp heq)
  · next hmany =>
    rw [Result.toTag]
    have hbegins : '!' :: "tuple".toList <+:
        ("!tuple(" ++ ", ".intercalate (builtTypes format) ++ ")").toList := by
      rw [String.toList_append, String.toList_append, List.append_assoc]
      exact List.IsPrefix.trans (by decide) (List.prefix_append _ _)
    have htuple : ("tuple", "()") ∈ collectionValues := by decide
    exact iff_of_true (isReturnable_of_isValued shown (isValued_of_begins htuple hbegins))
      (hmany Tag.unspecified)

/-- What a format puts together has a bare name for its value if it is just one value of unknown
type. -/
theorem placeholder_builtResult_of_unknown (shown : String → String)
    (hunknown : builtTypes format = [Tag.unspecified]) :
    Tag.placeholder shown (builtResult format).toTag = .value Tag.unspecified := by
  rw [builtResult, hunknown]
  exact placeholder_unknown shown

/-- A stub may return the value of an expression that is understood, if its form is not that of a
call which puts its result together. -/
theorem isReturnable_of_understood (shown : String → String) (hunderstood : Understood expr result)
    (hplain : ∀ format, ¬IsBuiltBy expr format) :
    IsReturnable shown (Tag.placeholder shown result.toTag) := by
  refine isReturnable_of_isValued shown ?_
  cases hunderstood with
  | nothing => decide
  | choice => decide
  | made hmaker =>
    have hmakers : ∀ maker ∈ makers, isValued (Tag.sense maker.2) = true := by decide +kernel
    exact hmakers _ hmaker
  | boxed type =>
    have hobject : ("object", "object()") ∈ collectionValues := by decide
    have hbegins : '!' :: "object".toList <+: ("!object (GTYPE=" ++ type ++ ")").toList := by
      rw [String.toList_append, String.toList_append, List.append_assoc]
      exact List.IsPrefix.trans (by decide) (List.prefix_append _ _)
    exact isValued_of_begins hobject hbegins
  | built hbuilt => exact absurd hbuilt (hplain _)

/-- The type that an override tells is that of an expression. -/
theorem exists_classify?_of_returns? {override : Override} (h : override.returns? = some tag) :
    ∃ expr result, classify? expr = some result ∧ result.toTag = tag := by
  obtain ⟨result, hresult, rfl⟩ := Option.map_eq_some_iff.mp h
  cases result?_eq_iff.mp hresult with
  | understood hfirst =>
    obtain ⟨expr, _, hclassified⟩ := Option.bind_eq_some_iff.mp hfirst.understood
    exact ⟨expr, result, hclassified, rfl⟩

/-- A stub returns a proper value for every expression that is classified, except for a call that
puts together just one value, and this of unknown type. For this call it returns a bare name. All
results that overrides tell are those of expressions that are classified. -/
theorem returned_value_proper_iff (ns : Namespace) :
    (∀ expr result, classify? expr = some result →
      (IsReturnable ns.shownName (Tag.placeholder ns.shownName result.toTag) ↔
        ¬∃ format, IsBuiltBy expr format ∧ builtTypes format = [Tag.unspecified]) ∧
      (¬IsReturnable ns.shownName (Tag.placeholder ns.shownName result.toTag) →
        Tag.placeholder ns.shownName result.toTag = .value Tag.unspecified)) ∧
      ∀ (override : Override) (tag : String), override.returns? = some tag →
        ∃ expr result, classify? expr = some result ∧ result.toTag = tag := by
  refine ⟨fun expr result hclassified => ?_, fun override tag => exists_classify?_of_returns?⟩
  by_cases hbuilt : ∃ format, IsBuiltBy expr format
  · obtain ⟨format, hformat⟩ := hbuilt
    obtain rfl := Option.some.inj (hclassified.symm.trans (classify?_of_isBuiltBy hformat))
    have hunknown : (∃ other, IsBuiltBy expr other ∧ builtTypes other = [Tag.unspecified]) ↔
        builtTypes format = [Tag.unspecified] := by
      constructor
      · rintro ⟨other, hother, htypes⟩
        rwa [hformat.unique hother]
      · intro htypes
        exact ⟨format, hformat, htypes⟩
    rw [hunknown]
    refine ⟨isReturnable_builtResult_iff ns.shownName format, fun hnot => ?_⟩
    rw [isReturnable_builtResult_iff, not_not] at hnot
    exact placeholder_builtResult_of_unknown ns.shownName hnot
  · have hplain : ∀ format, ¬IsBuiltBy expr format := not_exists.mp hbuilt
    have hreturnable := isReturnable_of_understood ns.shownName
      (understood_of_classify? hclassified) hplain
    refine ⟨iff_of_true hreturnable ?_, fun hnot => absurd hreturnable hnot⟩
    rintro ⟨format, hformat, _⟩
    exact hplain format hformat

/-- A call that puts a pair together has an empty tuple for its value. -/
theorem returned_value_proper_iff_of_pair :
    classify? "Py_BuildValue(\"(kk)\", a, b)".toList =
        some (.tag "!tuple(unspecified, unspecified)") ∧
      IsReturnable Namespace.empty.shownName
        (Tag.placeholder Namespace.empty.shownName "!tuple(unspecified, unspecified)") := by
  have htypes : builtTypes "(kk)".toList = ["tuple(unspecified, unspecified)"] :=
    Option.some.inj ((scanTypes_eq (by decide)).symm.trans
      (by decide : scanTypes 5 "(kk)".toList = some ["tuple(unspecified, unspecified)"]))
  have hbuilt : IsBuiltBy "Py_BuildValue(\"(kk)\", a, b)".toList "(kk)".toList :=
    { begins := by decide
      noChoice := by decide
      argument := ⟨"\"(kk)\"".toList, by decide⟩ }
  have hclassified : classify? "Py_BuildValue(\"(kk)\", a, b)".toList =
      some (.tag "!tuple(unspecified, unspecified)") := by
    rw [classify?_of_isBuiltBy hbuilt, builtResult, htypes]
    rfl
  refine ⟨hclassified, ?_⟩
  have hproper := ((returned_value_proper_iff .empty).1 _ _ hclassified).1
  refine hproper.mpr ?_
  rintro ⟨format, hformat, hunknown⟩
  rw [hformat.unique hbuilt, htypes] at hunknown
  exact absurd hunknown (by decide)

/-- A call that puts together one value of unknown type has a bare name for its value. -/
theorem unknown_value_is_bare_name :
    classify? "Py_BuildValue(\"k\", key)".toList = some (.tag "!unspecified") ∧
      Tag.placeholder Namespace.empty.shownName "!unspecified" = .value "unspecified" ∧
      ¬IsReturnable Namespace.empty.shownName (.value "unspecified") := by
  have htypes : builtTypes "k".toList = [Tag.unspecified] :=
    Option.some.inj ((scanTypes_eq (by decide)).symm.trans
      (by decide : scanTypes 2 "k".toList = some [Tag.unspecified]))
  have hbuilt : IsBuiltBy "Py_BuildValue(\"k\", key)".toList "k".toList :=
    { begins := by decide
      noChoice := by decide
      argument := ⟨"\"k\"".toList, by decide⟩ }
  refine ⟨?_, placeholder_unknown _, not_isReturnable_unknown _⟩
  rw [classify?_of_isBuiltBy hbuilt, builtResult, htypes]
  rfl

end Stubgen.Wrapper
