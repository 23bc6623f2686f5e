import Stubgen.Proofs.Text.Trimming
import Stubgen.Proofs.Wrapper.TakenValues
import Stubgen.Wrapper.Signature

/-!
# Values of unknown types

A parameter that a wrapper tells has a tag that spells its type out, or one that says that the type
is not known. Tags of neither kind are taken for the names of native classes. There is one way to
such a tag: a letter that stands for no type is followed by a mark, which notes the variable behind
the word for an unknown type. Formats in which this does not happen have proper tags only, and no
proper tag that a format tells is described as an instance of a class.
-/

namespace Stubgen.Wrapper

open Text (isBlank trim)

/-- A tag that says that the type is not known, or that spells it out. -/
def IsProper (tag : String) : Prop :=
  tag = Tag.unspecified ∨ Tag.isExplicit tag = true

instance (tag : String) : Decidable (IsProper tag) :=
  inferInstanceAs (Decidable (_ ∨ _))

/-- A value of an unknown type, and a mark that moves it. -/
def movedUnknown : List Item :=
  [.value Tag.unspecified, .mark]

/-- The latest value as an item, if its type is not known. -/
def pending : List TypedName → List Item
  | [] => []
  | value :: _ => if value.tag = Tag.unspecified then [.value Tag.unspecified] else []

variable {tag type : String} {names : List String} {format : List Char} {done : List TypedName}
  {following : List Item}

/-! ## Tags of items -/

/-- The tag of a type is proper. -/
theorem isProper_explicitTag (type : String) : IsProper (explicitTag type) := by
  unfold explicitTag
  split
  · next hunknown => exact .inl hunknown
  · exact .inr (by simp [Tag.isExplicit])

/-- Only the tag of the unknown type says that the type is not known. -/
theorem explicitTag_eq_unspecified_iff :
    explicitTag type = Tag.unspecified ↔ type = Tag.unspecified := by
  unfold explicitTag
  split
  · rfl
  · next hknown =>
    refine iff_of_false (fun heq => ?_) hknown
    have hhead := congrArg (fun text : String => text.toList.head?) heq
    exact absurd hhead (by simp [Tag.unspecified])

/-- A value that was moved has another tag than that of the unknown type. -/
theorem movedTo_tag_ne (name : String) (value : TypedName) :
    (movedTo name value).tag ≠ Tag.unspecified := by
  intro heq
  have hmem : '(' ∈ (movedTo name value).tag.toList := by simp [movedTo]
  rw [heq] at hmem
  exact absurd hmem (by decide)

/-- A value whose type is not unknown keeps a proper tag when it is moved, and gets none. -/
theorem isProper_movedTo_iff {value : TypedName} (hknown : value.tag ≠ Tag.unspecified)
    (name : String) : IsProper (movedTo name value).tag ↔ IsProper value.tag := by
  unfold IsProper
  rw [or_iff_right (movedTo_tag_ne name value), or_iff_right hknown]
  simp only [movedTo, Tag.isExplicit, String.toList_append]
  cases value.tag.toList with
  | nil => simp
  | cons c cs => simp

/-- A value of unknown type has no proper tag when it is moved. -/
theorem not_isProper_movedTo {value : TypedName} (hunknown : value.tag = Tag.unspecified)
    (name : String) : ¬IsProper (movedTo name value).tag := by
  rintro (heq | hexplicit)
  · exact movedTo_tag_ne name value heq
  · simp [movedTo, hunknown, Tag.isExplicit, Tag.unspecified] at hexplicit

/-! ## Moved values of unknown type -/

/-- A mark at the beginning moves no value. -/
theorem movedUnknown_infix_mark_iff :
    movedUnknown <:+: .mark :: following ↔ movedUnknown <:+: following := by
  rw [List.infix_cons_iff, or_iff_right]
  simp [movedUnknown]

/-- A value at the beginning is moved if its type is not known and a mark follows. -/
theorem movedUnknown_infix_value_iff :
    movedUnknown <:+: .value type :: following ↔
      movedUnknown <:+:
        (if type = Tag.unspecified then [.value Tag.unspecified] else []) ++ following := by
  split
  · next hunknown => rw [hunknown, List.singleton_append]
  · next hknown =>
    rw [List.infix_cons_iff, or_iff_right, List.nil_append]
    simp [movedUnknown, Ne.symm hknown]

/-- Where a value follows, the value before it is not moved. -/
theorem movedUnknown_infix_pending_iff :
    movedUnknown <:+: pending done ++ .value type :: following ↔
      movedUnknown <:+: .value type :: following := by
  cases done with
  | nil => rfl
  | cons value earlier =>
    rw [pending]
    split
    · rw [List.singleton_append, List.infix_cons_iff, or_iff_right]
      simp [movedUnknown]
    · rfl

/-- The tags of values are proper unless a value of unknown type is moved. -/
theorem forall_isProper_foldl_iff (done : List TypedName) (used : List (String × Item)) :
    (∀ value ∈ used.foldl takeItem done, IsProper value.tag) ↔
      (∀ value ∈ done, IsProper value.tag) ∧
        ¬movedUnknown <:+: pending done ++ used.map Prod.snd := by
  induction used generalizing done with
  | nil =>
    refine (and_iff_left fun hinfix => ?_).symm
    have hlength : (pending done).length ≤ 1 := by
      unfold pending
      split
      · exact Nat.zero_le 1
      split
      · exact Nat.le_refl 1
      · exact Nat.zero_le 1
    have hle := hinfix.length_le
    rw [List.map_nil, List.append_nil] at hle
    exact absurd (hle.trans hlength) (by decide)
  | cons first used ih =>
    obtain ⟨name, item⟩ := first
    rw [List.foldl_cons, ih, List.map_cons]
    cases item with
    | value type =>
      simp only [takeItem, List.forall_mem_cons, isProper_explicitTag, true_and,
        movedUnknown_infix_pending_iff, movedUnknown_infix_value_iff]
      simp only [pending, explicitTag_eq_unspecified_iff]
    | mark =>
      cases done with
      | nil =>
        simp only [takeItem, pending, List.nil_append, movedUnknown_infix_mark_iff]
      | cons last earlier =>
        simp only [takeItem, List.forall_mem_cons]
        by_cases hunknown : last.tag = Tag.unspecified
        · refine iff_of_false (fun h => not_isProper_movedTo hunknown name h.1.1) fun h => h.2 ?_
          rw [pending, if_pos hunknown]
          exact ⟨[], used.map Prod.snd, rfl⟩
        · rw [isProper_movedTo_iff hunknown, pending, if_neg (movedTo_tag_ne name last), pending,
            if_neg hunknown, List.nil_append, List.nil_append, movedUnknown_infix_mark_iff]

/-- As many items are put into variables as there are variables. -/
theorem map_snd_zip_eq_take (names : List String) (items : List Item) :
    (names.zip items).map Prod.snd = items.take names.length := by
  induction names generalizing items with
  | nil => rfl
  | cons name names ih =>
    cases items with
    | nil => rfl
    | cons item items =>
      rw [List.zip_cons_cons, List.map_cons, ih, List.length_cons, List.take_succ_cons]

/-- The tags that a format tells are proper exactly if it moves no value of unknown type, as long as
there are variables. -/
theorem forall_isProper_iff (names : List String) (format : List Char) :
    (∀ value ∈ takenTypes names format, IsProper value.tag) ↔
      ¬movedUnknown <:+: (items format).take names.length := by
  simp only [takenTypes_eq, List.mem_reverse, forall_isProper_foldl_iff, map_snd_zip_eq_take]
  simp [pending]

/-! ## Descriptions -/

/-- The first letters of types. -/
def typeBeginnings : List String :=
  ["str", "uni", "int", "cha", "flo", "com", "obj", "uns", "tup", "lis", "dic"]

/-- Every type begins with the first letters of a word. -/
theorem IsType.exists_beginning (htype : IsType type) :
    ∃ beginning ∈ typeBeginnings, beginning.toList <+: type.toList := by
  have hwords : ∀ word ∈ typeWords ++ groupWords,
      ∃ beginning ∈ typeBeginnings, beginning.toList <+: word.toList := by decide
  cases htype with
  | word hname => exact hwords _ (List.mem_append_left _ hname)
  | group hkind _ =>
    obtain ⟨beginning, hbeginning, hprefix⟩ := hwords _ (List.mem_append_right _ hkind)
    refine ⟨beginning, hbeginning, hprefix.trans ?_⟩
    simp

/-- The tags of values begin with the tags of types, whether they are moved or not. -/
theorem exists_explicitTag_prefix_foldl {used : List (String × Item)}
    (hused : ∀ type, .value type ∈ used.map Prod.snd → IsType type)
    (hdone : ∀ value ∈ done, ∃ type, IsType type ∧ (explicitTag type).toList <+: value.tag.toList) :
    ∀ value ∈ used.foldl takeItem done,
      ∃ type, IsType type ∧ (explicitTag type).toList <+: value.tag.toList := by
  induction used generalizing done with
  | nil => exact hdone
  | cons first used ih =>
    obtain ⟨name, item⟩ := first
    refine ih (fun type htype => hused type (List.mem_cons_of_mem item htype)) ?_
    cases item with
    | value type =>
      have htype := hused type List.mem_cons_self
      exact List.forall_mem_cons.mpr ⟨⟨type, htype, List.prefix_refl _⟩, hdone⟩
    | mark =>
      cases done with
      | nil => exact hdone
      | cons last earlier =>
        obtain ⟨⟨type, htype, hbegins⟩, hearlier⟩ := List.forall_mem_cons.mp hdone
        refine List.forall_mem_cons.mpr ⟨⟨type, htype, hbegins.trans ?_⟩, hearlier⟩
        simp [movedTo]

/-- Every tag that a format tells begins with the tag of a type. -/
theorem exists_explicitTag_prefix {value : TypedName} (hmem : value ∈ takenTypes names format) :
    ∃ type, IsType type ∧ (explicitTag type).toList <+: value.tag.toList := by
  rw [takenTypes_eq, List.mem_reverse] at hmem
  have hnone : ∀ value ∈ ([] : List TypedName),
      ∃ type, IsType type ∧ (explicitTag type).toList <+: value.tag.toList :=
    fun value hvalue => absurd hvalue List.not_mem_nil
  refine exists_explicitTag_prefix_foldl (fun type htype => ?_) hnone value hmem
  rw [map_snd_zip_eq_take] at htype
  have hbuilt : type ∈ builtTypes format := by
    rw [builtTypes_eq_items]
    exact List.mem_filterMap.mpr ⟨_, List.mem_of_mem_take htype, rfl⟩
  exact isType_of_mem_builtTypes hbuilt

/-- A tag with an exclamation mark before some letter describes itself, or a text. -/
theorem senseOf_of_explicit {c : Char} {words : List Char} (htag : tag.toList = '!' :: c :: words) :
    Tag.senseOf tag = .text ∨ Tag.senseOf tag = .explicit (String.ofList (c :: words)) := by
  have hne {other : String} (hother : other.toList.head? ≠ some '!') : tag ≠ other := by
    rintro rfl
    exact hother (by rw [htag, List.head?_cons])
  have hintegers : tag ∉ Tag.integers := by
    have hall : ∀ other ∈ Tag.integers, other.toList.head? ≠ some '!' := by decide
    exact fun hmem => hne (hall tag hmem) rfl
  unfold Tag.senseOf
  by_cases htext : Text.occursIn "char*".toList tag.toList = true
  · exact .inl (if_pos htext)
  · right
    rw [if_neg htext, if_neg (hne (by decide)), if_neg hintegers, if_neg (hne (by decide)),
      if_neg (hne (by decide)), if_neg (hne (by decide)), if_neg (hne (by decide)), htag]
    rfl

/-- A tag that is spelled out is described as a text, or by what follows the exclamation mark. -/
theorem describe_of_explicit {beginning : List Char} (hsome : beginning ≠ [])
    (hmarked : '!' :: beginning <+: tag.toList)
    (hblank : ∀ c ∈ '!' :: beginning, isBlank c = false) (shown : String → String) :
    Tag.describe shown tag = "string" ∨ beginning <+: (Tag.describe shown tag).toList := by
  obtain ⟨rest, hrest⟩ := Text.prefix_trim hmarked hblank
  obtain ⟨c, words, hwords⟩ : ∃ c words, beginning ++ rest = c :: words :=
    List.exists_cons_of_ne_nil fun hnil => hsome (List.append_eq_nil_iff.mp hnil).1
  have htrimmed : (Text.trimmed tag).toList = '!' :: c :: words := by
    rw [Text.trimmed, String.toList_ofList, ← hrest, List.cons_append, hwords]
  unfold Tag.describe Tag.sense
  rcases senseOf_of_explicit htrimmed with htext | hexplains
  · rw [htext]
    exact .inl rfl
  · rw [hexplains]
    refine .inr ?_
    rw [String.toList_ofList, ← hwords]
    exact List.prefix_append _ _

/-- A proper tag that begins with the tag of a type is not described as an instance of a class. -/
theorem describe_of_isProper (htype : IsType type)
    (hbegins : (explicitTag type).toList <+: tag.toList) (hproper : IsProper tag)
    (shown : String → String) :
    ¬"instance of ".toList <+: (Tag.describe shown tag).toList := by
  rcases hproper with rfl | hexplicit
  · have hsense : Tag.sense Tag.unspecified = .unspecified := by decide
    have hwords : Tag.describe shown Tag.unspecified = "unspecified type" := by
      rw [Tag.describe, hsense]
    rw [hwords]
    decide
  have hknown : type ≠ Tag.unspecified := by
    rintro rfl
    obtain ⟨rest, hrest⟩ := hbegins
    rw [Tag.isExplicit, ← hrest, List.head?_append] at hexplicit
    exact absurd hexplicit (by simp [explicitTag, Tag.unspecified])
  obtain ⟨beginning, hbeginning, hstarts⟩ := htype.exists_beginning
  have hmarked : '!' :: beginning.toList <+: tag.toList := by
    rw [explicitTag, if_neg hknown, String.toList_append] at hbegins
    exact (List.cons_prefix_cons.mpr ⟨rfl, hstarts⟩).trans hbegins
  -- The first letters are not trimmed, and they are not those of an instance.
  have hletters : ∀ beginning ∈ typeBeginnings,
      ('!' :: beginning.toList).all (fun c => !isBlank c) = true ∧ beginning.toList.length = 3 ∧
        beginning.toList ≠ "ins".toList := by decide
  obtain ⟨hall, hlength, hother⟩ := hletters beginning hbeginning
  have hblank : ∀ c ∈ '!' :: beginning.toList, isBlank c = false := fun c hc =>
    (Bool.not_eq_true' _).mp (List.all_eq_true.mp hall c hc)
  have hsome : beginning.toList ≠ [] := List.ne_nil_of_length_pos (by omega)
  intro hinstance
  rcases describe_of_explicit hsome hmarked hblank shown with htext | hwords
  · rw [htext] at hinstance
    exact absurd hinstance (by decide)
  · have hins : "ins".toList <+: (Tag.describe shown tag).toList :=
      List.IsPrefix.trans (by decide) hinstance
    have hshorter := List.prefix_of_prefix_length_le hwords hins (Nat.le_of_eq hlength)
    exact hother (hshorter.eq_of_length hlength)

/-! ## Recovered parameters -/

/-- The parameters that a wrapper tells are values that a format takes. -/
theorem exists_takenTypes_of_parameters? {code : List Char} {types : List TypedName}
    (h : parameters? code = some types) : ∃ names format, types = takenTypes names format := by
  have hfound {call : ParsingCall} (hsite : call.site code = .found types) :
      ∃ names format, types = takenTypes names format := by
    unfold ParsingCall.site at hsite
    split at hsite
    · contradiction
    split at hsite
    · contradiction
    unfold ParsingCall.read at hsite
    dsimp only at hsite
    split at hsite
    · contradiction
    · obtain rfl := CallSite.found.inj hsite
      exact ⟨_, _, rfl⟩
  unfold parameters? at h
  split at h
  · next parameters hsite =>
    obtain rfl := Option.some.inj h
    exact hfound hsite
  · split at h
    · next parameters hsite =>
      obtain rfl := Option.some.inj h
      exact hfound hsite
    · contradiction

/-- The tags of parameters say that the type is not known or spell it out, exactly if the format
moves no value of unknown type, as long as there are variables. Such tags are not described as
instances of a class. All parameters that wrappers tell have their tags from formats. -/
theorem recovered_tags_proper_iff (names : List String) (format : List Char) :
    ((∀ value ∈ takenTypes names format, IsProper value.tag) ↔
      ¬movedUnknown <:+: (items format).take names.length) ∧
      (∀ value ∈ takenTypes names format, IsProper value.tag →
        ∀ shown, ¬"instance of ".toList <+: (Tag.describe shown value.tag).toList) ∧
      ∀ code types, parameters? code = some types →
        ∃ others text, types = takenTypes others text := by
  refine ⟨forall_isProper_iff names format, fun value hmem hproper shown => ?_,
    fun code types => exists_takenTypes_of_parameters?⟩
  obtain ⟨type, htype, hbegins⟩ := exists_explicitTag_prefix hmem
  exact describe_of_isProper htype hbegins hproper shown

/-- A value of unknown type that is moved is described as an instance of a class. -/
theorem moved_unknown_is_instance :
    takenTypes ["a", "b"] "k!".toList = [⟨"b", "unspecified (C type: a)"⟩] ∧
      ¬IsProper "unspecified (C type: a)" ∧
      Tag.describe id "unspecified (C type: a)" = "instance of unspecified (C type: a)" :=
  ⟨takenTypes_of_scanValues (by decide), by decide, by decide⟩

end Stubgen.Wrapper
