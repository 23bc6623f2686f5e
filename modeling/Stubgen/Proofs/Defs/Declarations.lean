import Mathlib.Data.List.Forall2
import Mathlib.Data.List.Induction
import Stubgen.Defs.Expansion
import Stubgen.Proofs.Entries

/-!
# Declarations and their records

A declaration is a list of a head that begins with `define-`, of a name and of entries, each of which
is a list that begins with its tag. This file proves that exactly the declarations are turned into
records, and that any other form is refused for the first thing that is wrong with it. A record
gathers under each tag the values of all entries with this tag in the order of the text, wherever
between the others these entries stand.
-/

namespace Stubgen.Defs

/-- What a definition says. -/
structure Declaration where
  /-- The word behind `define-`. -/
  label : String
  name : String
  /-- The tags of the entries, each with the values of its entry. -/
  entries : List (String × List Form)

/-- The form is a list of the tag of an entry and its values. -/
def Form.IsEntry (form : Form) (entry : String × List Form) : Prop :=
  ∃ tag, form = .list (tag :: entry.2) ∧ tag.text? = some entry.1

/-- The form is a list that begins with a head and a name and goes on with entries. -/
def Form.IsDeclaration (form : Form) (declaration : Declaration) : Prop :=
  ∃ head second items, form = .list (head :: second :: items) ∧
    head.text? = some ("define-" ++ declaration.label) ∧ second.text? = some declaration.name ∧
    List.Forall₂ Form.IsEntry items declaration.entries

/-- What is wrong with a form that is no declaration. The first thing that is wrong counts. -/
inductive Malformed : Form → Cause → Prop where
  | notAList {form : Form} (hform : form.items? = none) : Malformed form (.notAList form)
  | noHead {form : Form} (hform : form.items?.isSome) (hhead : form.head? = none) :
      Malformed form (.noHead form)
  | unknownHead {form : Form} {text : String} (hhead : form.head? = some text)
      (htext : ∀ label, text ≠ "define-" ++ label) : Malformed form (.unknownHead text)
  | noName {head : Form} {rest : List Form} {label : String}
      (hhead : head.text? = some ("define-" ++ label))
      (hname : ∀ second ∈ rest.head?, second.text? = none) :
      Malformed (.list (head :: rest)) (.noName ("define-" ++ label))
  | malformedEntry {head second item : Form} {before after : List Form} {label name : String}
      (hhead : head.text? = some ("define-" ++ label)) (hname : second.text? = some name)
      (hbefore : ∀ earlier ∈ before, ∃ entry, earlier.IsEntry entry)
      (hitem : ∀ entry, ¬item.IsEntry entry) :
      Malformed (.list (head :: second :: (before ++ item :: after))) (.malformedEntry item name)

/-- The values of the entries with a tag, in the order of the entries. -/
def valuesUnder (tag : String) (entries : List (String × List Form)) : List Form :=
  (entries.filter (·.1 = tag)).flatMap (·.2)

/-- The record says what the declaration says, with the values gathered under their tags. -/
structure Record.Gathers (record : Record) (declaration : Declaration) : Prop where
  kind : record.kind = Kind.ofLabel declaration.label
  /-- There are no blanks around the name. -/
  name : record.name = Text.trimmed declaration.name
  /-- The tags stand in the order of their first entries. -/
  tags : record.tags.keys = (declaration.entries.map (·.1)).eraseDups
  /-- A tag without an entry is absent, and any other one has the values of its entries. -/
  values : ∀ tag, record.tags.get? tag =
    if tag ∈ declaration.entries.map (·.1) then some (valuesUnder tag declaration.entries) else none
  /-- Every value is there as often as it is written. -/
  values_perm : (record.tags.entries.flatMap (·.2)).Perm (declaration.entries.flatMap (·.2))

/-! ## Gathering values -/

/-- The ledger with the values of one more entry. -/
def gather (tags : Ledger (List Form)) (entry : String × List Form) : Ledger (List Form) :=
  tags.revise entry.1 fun old => old.getD [] ++ entry.2

/-- The ledger that gathers the values of entries. -/
def gathered (entries : List (String × List Form)) : Ledger (List Form) :=
  entries.foldl gather .empty

/-- One more entry is gathered after the others. -/
theorem gathered_concat (entries : List (String × List Form)) (entry : String × List Form) :
    gathered (entries ++ [entry]) = gather (gathered entries) entry := by
  rw [gathered, List.foldl_append]
  rfl

/-- One more entry adds its values to those of its tag. -/
theorem valuesUnder_concat (tag : String) (entries : List (String × List Form))
    (entry : String × List Form) :
    valuesUnder tag (entries ++ [entry]) =
      valuesUnder tag entries ++ if entry.1 = tag then entry.2 else [] := by
  simp only [valuesUnder, List.filter_append, List.flatMap_append]
  split
  · next heq => simp [heq]
  · next hne => simp [hne]

/-- A tag without an entry has no values. -/
theorem valuesUnder_of_notMem {tag : String} {entries : List (String × List Form)}
    (htag : tag ∉ entries.map (·.1)) : valuesUnder tag entries = [] := by
  have hnone : entries.filter (·.1 = tag) = [] :=
    List.filter_eq_nil_iff.mpr fun entry hentry heq =>
      htag (List.mem_map.mpr ⟨entry, hentry, of_decide_eq_true heq⟩)
  rw [valuesUnder, hnone, List.flatMap_nil]

/-- What comes last counts only if it has not come before. -/
theorem eraseDups_concat (texts : List String) (text : String) :
    (texts ++ [text]).eraseDups =
      if text ∈ texts then texts.eraseDups else texts.eraseDups ++ [text] := by
  rw [List.eraseDups_append]
  split
  · next hmem => simp [List.removeAll, hmem]
  · next hnew => simp [List.removeAll, hnew, List.eraseDups_cons]

/-- The tags are gathered in the order of their first entries. -/
theorem keys_gathered (entries : List (String × List Form)) :
    (gathered entries).keys = (entries.map (·.1)).eraseDups := by
  induction entries using List.reverseRecOn with
  | nil => rfl
  | append_singleton entries entry ih =>
    rw [gathered_concat, gather, Ledger.keys_revise, ih, List.map_append, List.map_singleton,
      eraseDups_concat]
    simp only [List.mem_eraseDups]

/-- No tag is gathered twice. -/
theorem nodup_keys_gathered (entries : List (String × List Form)) :
    (gathered entries).keys.Nodup := by
  induction entries using List.reverseRecOn with
  | nil => exact List.nodup_nil
  | append_singleton entries entry ih =>
    rw [gathered_concat]
    exact Ledger.nodup_keys_revise ih _ _

/-- Under every tag are the values of its entries. -/
theorem get?_gathered (entries : List (String × List Form)) (tag : String) :
    (gathered entries).get? tag =
      if tag ∈ entries.map (·.1) then some (valuesUnder tag entries) else none := by
  induction entries using List.reverseRecOn with
  | nil => rfl
  | append_singleton entries entry ih =>
    rw [gathered_concat, gather, Ledger.get?_revise, valuesUnder_concat]
    by_cases heq : tag = entry.1
    · subst heq
      have hold : ((gathered entries).get? entry.1).getD [] = valuesUnder entry.1 entries := by
        rw [ih]
        split
        · rfl
        · next hnew => rw [valuesUnder_of_notMem hnew, Option.getD_none]
      simp [hold]
    · have hmem : tag ∈ (entries ++ [entry]).map (·.1) ↔ tag ∈ entries.map (·.1) := by
        simp [heq]
      simp only [if_neg heq, ih, if_neg (Ne.symm heq), List.append_nil, hmem]

/-- A revision that adds values to those of a tag adds them to all values. -/
theorem flatMap_reviseEntry_perm (tag : String) (values : List Form)
    (list : List (String × List Form)) :
    ((Ledger.reviseEntry tag (fun old => old.getD [] ++ values) list).flatMap (·.2)).Perm
      (list.flatMap (·.2) ++ values) := by
  induction list with
  | nil => simp [Ledger.reviseEntry]
  | cons entry rest ih =>
    unfold Ledger.reviseEntry
    split
    · simp only [List.flatMap_cons, Option.getD_some, List.append_assoc]
      exact .append_left _ List.perm_append_comm
    · simp only [List.flatMap_cons, List.append_assoc]
      exact .append_left _ ih

/-- All values are gathered once. -/
theorem flatMap_gathered_perm (entries : List (String × List Form)) :
    ((gathered entries).entries.flatMap (·.2)).Perm (entries.flatMap (·.2)) := by
  induction entries using List.reverseRecOn with
  | nil => exact .refl _
  | append_singleton entries entry ih =>
    rw [gathered_concat, List.flatMap_append, List.flatMap_singleton]
    exact (flatMap_reviseEntry_perm entry.1 entry.2 _).trans (ih.append_right _)

/-! ## Entries that are taken up -/

/-- A form that is no entry does not begin with a text. -/
theorem Form.head?_eq_none_iff {form : Form} :
    form.head? = none ↔ ∀ entry, ¬form.IsEntry entry := by
  constructor
  · rintro hhead entry ⟨tag, rfl, htag⟩
    exact nomatch hhead.symm.trans htag
  · intro h
    cases hform : form with
    | atom text => rfl
    | str text => rfl
    | list items =>
      cases items with
      | nil => rfl
      | cons tag values =>
        cases htag : tag.text? with
        | none => exact htag
        | some text => exact absurd ⟨tag, hform, htag⟩ (h (text, values))

/-- An entry adds its values to those of its tag. -/
theorem addEntry_of_isEntry {item : Form} {entry : String × List Form} (hitem : item.IsEntry entry)
    (name : String) (record : Record) :
    Record.addEntry name record item = .ok { record with tags := gather record.tags entry } := by
  obtain ⟨tag, rfl, htag⟩ := hitem
  have hhead : (Form.list (tag :: entry.2)).head? = some entry.1 := htag
  simp only [Record.addEntry, hhead]
  rfl

/-- Entries are gathered one after the other. -/
theorem foldlM_addEntry {items : List Form} {entries : List (String × List Form)}
    (hitems : List.Forall₂ Form.IsEntry items entries) (name : String) (record : Record) :
    items.foldlM (Record.addEntry name) record =
      .ok { record with tags := entries.foldl gather record.tags } := by
  induction hitems generalizing record with
  | nil => rfl
  | cons hitem _ ih =>
    rw [List.foldlM_cons, addEntry_of_isEntry hitem]
    exact ih _

/-- The first form that is no entry is refused. -/
theorem foldlM_addEntry_of_malformed {before after : List Form} {item : Form}
    (hbefore : ∀ earlier ∈ before, ∃ entry, earlier.IsEntry entry)
    (hitem : ∀ entry, ¬item.IsEntry entry) (name : String) (record : Record) :
    (before ++ item :: after).foldlM (Record.addEntry name) record =
      .error (.malformedEntry item name) := by
  induction before generalizing record with
  | nil =>
    rw [List.nil_append, List.foldlM_cons, Record.addEntry, Form.head?_eq_none_iff.mpr hitem]
    rfl
  | cons earlier before ih =>
    obtain ⟨⟨entry, hearlier⟩, hbefore⟩ := List.forall_mem_cons.mp hbefore
    rw [List.cons_append, List.foldlM_cons, addEntry_of_isEntry hearlier]
    exact ih hbefore _

/-- Either all forms are entries, or there is a first one that is none. -/
theorem entries_or_malformed (items : List Form) :
    (∃ entries, List.Forall₂ Form.IsEntry items entries) ∨
      ∃ before item after, items = before ++ item :: after ∧
        (∀ earlier ∈ before, ∃ entry, earlier.IsEntry entry) ∧ ∀ entry, ¬item.IsEntry entry := by
  induction items with
  | nil => exact .inl ⟨[], .nil⟩
  | cons item items ih =>
    by_cases hitem : ∃ entry, item.IsEntry entry
    · obtain ⟨entry, hentry⟩ := hitem
      rcases ih with ⟨entries, hentries⟩ | ⟨before, first, after, rfl, hbefore, hfirst⟩
      · exact .inl ⟨entry :: entries, .cons hentry hentries⟩
      · exact .inr ⟨item :: before, first, after, rfl,
          List.forall_mem_cons.mpr ⟨⟨entry, hentry⟩, hbefore⟩, hfirst⟩
    · exact .inr ⟨[], item, items, rfl, fun _ hmem => absurd hmem List.not_mem_nil,
        not_exists.mp hitem⟩

/-! ## Forms that are taken up -/

/-- The kind that a head announces is named behind `define-`. -/
theorem ofHead?_define (label : String) :
    Kind.ofHead? ("define-" ++ label) = some (Kind.ofLabel label) := by
  have hlabel : Text.dropStart? "define-".toList ("define-" ++ label).toList =
      some label.toList := by
    rw [Text.dropStart?, String.toList_append, if_pos (by simp), List.drop_left]
  rw [Kind.ofHead?, hlabel, Option.map_some, String.ofList_toList]

/-- No other head announces a kind. -/
theorem ofHead?_eq_none {text : String} (htext : ∀ label, text ≠ "define-" ++ label) :
    Kind.ofHead? text = none := by
  have hprefix : ¬"define-".toList.isPrefixOf text.toList = true := by
    intro h
    obtain ⟨rest, hrest⟩ := List.isPrefixOf_iff_prefix.mp h
    refine htext (String.ofList rest) ?_
    rw [← String.ofList_toList (s := text), ← hrest, String.ofList_append, String.ofList_toList]
  rw [Kind.ofHead?, Text.dropStart?, if_neg hprefix, Option.map_none]

/-- The record of a declaration. -/
def Declaration.record (declaration : Declaration) : Record :=
  ⟨Kind.ofLabel declaration.label, Text.trimmed declaration.name, gathered declaration.entries⟩

/-- A declaration is turned into its record. -/
theorem ofForm_of_isDeclaration {form : Form} {declaration : Declaration}
    (hform : form.IsDeclaration declaration) :
    Record.ofForm form = .ok declaration.record := by
  obtain ⟨head, second, items, rfl, hhead, hname, hitems⟩ := hform
  have hhead' : (Form.list (head :: second :: items)).head? =
      some ("define-" ++ declaration.label) := hhead
  simp only [Record.ofForm, hhead', ofHead?_define, List.getElem?_cons_succ,
    List.getElem?_cons_zero, Option.bind_some, hname, List.drop_succ_cons, List.drop_zero]
  exact foldlM_addEntry hitems _ _

/-- A malformed form is refused for the first thing that is wrong with it. -/
theorem ofForm_of_malformed {form : Form} {cause : Cause} (hform : Malformed form cause) :
    Record.ofForm form = .error cause := by
  cases hform with
  | notAList hform =>
    cases form with
    | list items => exact nomatch hform
    | atom text => rfl
    | str text => rfl
  | noHead hform hhead =>
    cases form with
    | list items => simp only [Record.ofForm, hhead]
    | atom text => exact nomatch hform
    | str text => exact nomatch hform
  | unknownHead hhead htext =>
    cases form with
    | list items => simp only [Record.ofForm, hhead, ofHead?_eq_none htext]
    | atom text => exact nomatch hhead
    | str text => exact nomatch hhead
  | @noName head rest label hhead hname =>
    have hhead' : (Form.list (head :: rest)).head? = some ("define-" ++ label) := hhead
    have hname' : (head :: rest)[1]?.bind Form.text? = none := by
      cases rest with
      | nil => rfl
      | cons second rest => exact hname second rfl
    simp only [Record.ofForm, hhead', ofHead?_define, hname']
  | @malformedEntry head second item before after label name hhead hname hbefore hitem =>
    have hhead' : (Form.list (head :: second :: (before ++ item :: after))).head? =
        some ("define-" ++ label) := hhead
    simp only [Record.ofForm, hhead', ofHead?_define, List.getElem?_cons_succ,
      List.getElem?_cons_zero, Option.bind_some, hname, List.drop_succ_cons, List.drop_zero]
    exact foldlM_addEntry_of_malformed hbefore hitem _ _

/-- Every form is a declaration or malformed. -/
theorem declaration_or_malformed (form : Form) :
    (∃ declaration, form.IsDeclaration declaration) ∨ ∃ cause, Malformed form cause := by
  cases form with
  | atom text => exact .inr ⟨_, .notAList rfl⟩
  | str text => exact .inr ⟨_, .notAList rfl⟩
  | list items =>
    cases hhead : (Form.list items).head? with
    | none => exact .inr ⟨_, .noHead rfl hhead⟩
    | some text =>
      by_cases htext : ∃ label, text = "define-" ++ label
      · obtain ⟨label, rfl⟩ := htext
        cases items with
        | nil => exact nomatch hhead
        | cons head rest =>
          cases hname : rest.head?.bind Form.text? with
          | none =>
            refine .inr ⟨_, .noName hhead fun second hsecond => ?_⟩
            rwa [hsecond, Option.bind_some] at hname
          | some name =>
            obtain ⟨second, hsecond, hname⟩ := Option.bind_eq_some_iff.mp hname
            obtain ⟨items, rfl⟩ := List.head?_eq_some_iff.mp hsecond
            rcases entries_or_malformed items with ⟨entries, hentries⟩ | ⟨before, item, after, rfl,
              hbefore, hitem⟩
            · exact .inl ⟨⟨label, name, entries⟩, head, second, items, rfl, hhead, hname, hentries⟩
            · exact .inr ⟨_, .malformedEntry hhead hname hbefore hitem⟩
      · exact .inr ⟨_, .unknownHead hhead (not_exists.mp htext)⟩

/-! ## Records of declarations -/

/-- The record of a declaration says what the declaration says. -/
theorem gathers_record (declaration : Declaration) :
    declaration.record.Gathers declaration where
  kind := rfl
  name := rfl
  tags := keys_gathered declaration.entries
  values := get?_gathered declaration.entries
  values_perm := flatMap_gathered_perm declaration.entries

/-- No other record says the same. -/
theorem Record.Gathers.eq_record {record : Record} {declaration : Declaration}
    (h : record.Gathers declaration) : record = declaration.record := by
  have hgathered := gathers_record declaration
  obtain ⟨kind, name, tags⟩ := record
  have htags : tags = gathered declaration.entries :=
    (Ledger.ext_of_keys (hgathered.tags.trans h.tags.symm)
      (nodup_keys_gathered declaration.entries)
      fun tag => (hgathered.values tag).trans (h.values tag).symm).symm
  rw [Declaration.record, ← h.kind, ← h.name, ← htags]

variable {path : Files.Path} {top : TopLevel}

/-- The record of a declaration at the top of a file. -/
theorem ofTopLevel_of_isDeclaration {declaration : Declaration}
    (hform : top.form.IsDeclaration declaration) :
    Record.ofTopLevel path top = .ok declaration.record := by
  simp only [Record.ofTopLevel, ofForm_of_isDeclaration hform]

/-- What is wrong with a malformed form at the top of a file shows on its line. -/
theorem ofTopLevel_of_malformed {cause : Cause} (hform : Malformed top.form cause) :
    Record.ofTopLevel path top = .error (.defs path ⟨top.line, cause⟩) := by
  simp only [Record.ofTopLevel, ofForm_of_malformed hform]

/-- The record of a form at the top of a file is the one that says what the form declares. -/
theorem ofTopLevel_eq_ok_iff {record : Record} :
    Record.ofTopLevel path top = .ok record ↔
      ∃ declaration, top.form.IsDeclaration declaration ∧ record.Gathers declaration := by
  constructor
  · intro h
    rcases declaration_or_malformed top.form with ⟨declaration, hform⟩ | ⟨cause, hform⟩
    · rw [ofTopLevel_of_isDeclaration hform] at h
      obtain rfl := Except.ok.inj h
      exact ⟨declaration, hform, gathers_record declaration⟩
    · exact nomatch (ofTopLevel_of_malformed hform).symm.trans h
  · rintro ⟨declaration, hform, hrecord⟩
    rw [ofTopLevel_of_isDeclaration hform, hrecord.eq_record]

/-- A form at the top of a file is refused only for the first thing that is wrong with it. -/
theorem ofTopLevel_eq_error_iff {e : Error} :
    Record.ofTopLevel path top = .error e ↔
      ∃ cause, Malformed top.form cause ∧ e = .defs path ⟨top.line, cause⟩ := by
  constructor
  · intro h
    rcases declaration_or_malformed top.form with ⟨declaration, hform⟩ | ⟨cause, hform⟩
    · exact nomatch (ofTopLevel_of_isDeclaration hform).symm.trans h
    · rw [ofTopLevel_of_malformed hform] at h
      exact ⟨cause, hform, (Except.error.inj h).symm⟩
  · rintro ⟨cause, hform, rfl⟩
    exact ofTopLevel_of_malformed hform

/-- A form at the top of a file is turned into a record exactly if it is a declaration, and the
record is the one that says what the declaration says. Any other form is refused, on the line where
it stands, for the first thing that is wrong with it. -/
theorem ofTopLevel_gathers (path : Files.Path) (top : TopLevel) :
    ((∃ record, Record.ofTopLevel path top = .ok record) ↔
      ∃ declaration, top.form.IsDeclaration declaration) ∧
    (∀ record, Record.ofTopLevel path top = .ok record ↔
      ∃ declaration, top.form.IsDeclaration declaration ∧ record.Gathers declaration) ∧
    ∀ e, Record.ofTopLevel path top = .error e ↔
      ∃ cause, Malformed top.form cause ∧ e = .defs path ⟨top.line, cause⟩ := by
  refine ⟨⟨?_, ?_⟩, fun record => ofTopLevel_eq_ok_iff, fun e => ofTopLevel_eq_error_iff⟩
  · rintro ⟨record, hrecord⟩
    obtain ⟨declaration, hform, -⟩ := ofTopLevel_eq_ok_iff.mp hrecord
    exact ⟨declaration, hform⟩
  · rintro ⟨declaration, hform⟩
    exact ⟨declaration.record, ofTopLevel_of_isDeclaration hform⟩

end Stubgen.Defs
