import Stubgen.Proofs.Defs.Acceptance
import Stubgen.Proofs.Defs.Partition

/-!
# Reading rendered forms

A rendered form can be read as a definition text. Its lists and atoms come back as they are. Its
strings are written with the escapes of messages and read with those of definition texts, and the
two agree on some characters only. This file says which strings come back unchanged.
-/

namespace Stubgen.Defs

/-- Quotes show the character as it is, or by one of the escapes for a double quote, a backslash,
a line feed and a tab. -/
def QuotedPlainly (c : Char) : Prop :=
  Text.quoteChar c ∈ [[c], ['\\', '"'], ['\\', '\\'], ['\\', 'n'], ['\\', 't']]

instance : DecidablePred QuotedPlainly := fun c =>
  inferInstanceAs (Decidable (Text.quoteChar c ∈ _))

/-- What a character between quotes is read as. -/
def rereadChar (c : Char) : List Char :=
  unescape (Text.quoteChar c)

/-- The tokens can be read in a row wherever the text stands, provided that no atom goes on after
it. -/
def LexesTo (text : List Char) (tokens : List Token) : Prop :=
  ∀ position rest, (∀ c ∈ rest.head?, c ∈ delimiters) →
    ∃ lexemes, lexemes.map Lexeme.token = tokens ∧
      lexFrom position (text ++ rest) = lexemes ++ lexFrom (position.after text) rest

namespace Form

/-- The atoms of the form can stand in a text: they have characters, none of which is a
delimiter. -/
def Writable (form : Form) : Prop :=
  ∀ text, .atom text ∈ form.tokens → text ≠ "" ∧ ∀ c ∈ text.toList, c ∉ delimiters

/-- The strings of the form have only characters that are quoted plainly. -/
def QuotedPlainly (form : Form) : Prop :=
  ∀ text, .str text ∈ form.tokens → ∀ c ∈ text.toList, Defs.QuotedPlainly c

mutual

/-- The form that the rendered form is read as. -/
def reread : Form → Form
  | atom text => atom text
  | str text => str (String.ofList (text.toList.flatMap rereadChar))
  | list items => list (rereadItems items)

/-- The forms that the rendered forms are read as. -/
def rereadItems : List Form → List Form
  | [] => []
  | form :: rest => form.reread :: rereadItems rest

end

end Form

/-! ## Quoted characters -/

/-- Insides of strings can be joined. -/
theorem Escaped.append {body text body' text' : List Char} (h : Escaped body text)
    (h' : Escaped body' text') : Escaped (body ++ body') (text ++ text') := by
  induction h with
  | nil => exact h'
  | plain hquote hbackslash _ ih => exact ih.plain hquote hbackslash
  | lineFeed _ ih => exact ih.lineFeed
  | tab _ ih => exact ih.tab
  | other hlineFeed hn ht _ ih => exact ih.other hlineFeed hn ht

/-- Characters other than the double quote and the backslash are the inside of a string as they
are. -/
theorem escaped_self {text : List Char} (h : ∀ c ∈ text, c ≠ '"' ∧ c ≠ '\\') :
    Escaped text text := by
  induction text with
  | nil => exact .nil
  | cons c cs ih =>
    obtain ⟨hquote, hbackslash⟩ := h c List.mem_cons_self
    exact (ih fun d hd => h d (List.mem_cons_of_mem c hd)).plain hquote hbackslash

/-- Hexadecimal digits are neither double quotes nor backslashes. -/
theorem ne_of_mem_hexDigits (n : Nat) : ∀ c ∈ Text.hexDigits n, c ≠ '"' ∧ c ≠ '\\' := by
  have hdigit : ∀ d < 16, Nat.digitChar d ≠ '"' ∧ Nat.digitChar d ≠ '\\' := by decide
  unfold Text.hexDigits
  induction n using Nat.strongRecOn with
  | ind n ih =>
    intro c hc
    rw [Nat.toDigits_eq_if (by decide)] at hc
    split at hc
    · next hsmall =>
      rw [List.mem_singleton.mp hc]
      exact hdigit n hsmall
    · next hlarge =>
      rcases List.mem_append.mp hc with hc | hc
      · exact ih (n / 16) (Nat.div_lt_self (by omega) (by decide)) c hc
      · rw [List.mem_singleton.mp hc]
        exact hdigit (n % 16) (Nat.mod_lt n (by decide))

/-- The characters that quotes show by a backslash and one more character, each with that
character. -/
def shortEscapes : List (Char × Char) :=
  [('\x00', '0'), ('\t', 't'), ('\r', 'r'), ('\n', 'n'), ('"', '"'), ('\\', '\\')]

/-- A character between quotes is shown as it is, by a short escape or by its code point. The
letter that announces a code point is not shown by its own. -/
theorem quoteChar_cases (c : Char) :
    (Text.quoteChar c = [c] ∧ c ≠ '"' ∧ c ≠ '\\') ∨
    (∃ d, Text.quoteChar c = ['\\', d] ∧ (c, d) ∈ shortEscapes) ∨
    (c ≠ 'u' ∧
      Text.quoteChar c = '\\' :: 'u' :: ('\x7b' :: Text.hexDigits c.toNat ++ ['\x7d'])) := by
  unfold Text.quoteChar
  split_ifs with hnul htab hreturn hlineFeed hquote hbackslash hcode
  · exact .inr (.inl ⟨'0', rfl, by simp [shortEscapes, hnul]⟩)
  · exact .inr (.inl ⟨'t', rfl, by simp [shortEscapes, htab]⟩)
  · exact .inr (.inl ⟨'r', rfl, by simp [shortEscapes, hreturn]⟩)
  · exact .inr (.inl ⟨'n', rfl, by simp [shortEscapes, hlineFeed]⟩)
  · exact .inr (.inl ⟨'"', rfl, by simp [shortEscapes, hquote]⟩)
  · exact .inr (.inl ⟨'\\', rfl, by simp [shortEscapes, hbackslash]⟩)
  · have hletter : (Text.graphemeExtend.contains 'u' || Text.unprintable.contains 'u') = false := by
      simp only [Text.CharSet.contains, ← Array.any_toList]
      decide +kernel
    exact .inr (.inr ⟨fun h => by simp [h, hletter] at hcode, rfl⟩)
  · exact .inl ⟨rfl, hquote, hbackslash⟩

/-- A short escape is the inside of a string. -/
theorem escaped_of_mem_shortEscapes {c d : Char} (h : (c, d) ∈ shortEscapes) :
    Escaped ['\\', d] (unescape ['\\', d]) := by
  simp only [shortEscapes, List.mem_cons, Prod.mk.injEq, List.not_mem_nil, or_false] at h
  rcases h with ⟨-, rfl⟩ | ⟨-, rfl⟩ | ⟨-, rfl⟩ | ⟨-, rfl⟩ | ⟨-, rfl⟩ | ⟨-, rfl⟩
  · exact .other (by decide) (by decide) (by decide) .nil
  · exact .tab .nil
  · exact .other (by decide) (by decide) (by decide) .nil
  · exact .lineFeed .nil
  · exact .other (by decide) (by decide) (by decide) .nil
  · exact .other (by decide) (by decide) (by decide) .nil

/-- A quoted character is the inside of a string. -/
theorem escaped_quoteChar (c : Char) : Escaped (Text.quoteChar c) (rereadChar c) := by
  unfold rereadChar
  rcases quoteChar_cases c with ⟨hquoted, hquote, hbackslash⟩ | ⟨d, hquoted, hshort⟩ | ⟨-, hquoted⟩
  · rw [hquoted]
    exact .plain hquote hbackslash .nil
  · rw [hquoted]
    exact escaped_of_mem_shortEscapes hshort
  · rw [hquoted]
    have hplain : ∀ e ∈ '\x7b' :: Text.hexDigits c.toNat ++ ['\x7d'], e ≠ '"' ∧ e ≠ '\\' := by
      intro e he
      simp only [List.cons_append, List.mem_cons, List.mem_append, List.not_mem_nil,
        or_false] at he
      rcases he with rfl | he | rfl
      · decide
      · exact ne_of_mem_hexDigits _ e he
      · decide
    have hcode := (escaped_self hplain).other (c := 'u') (by decide) (by decide) (by decide)
    rwa [hcode.unescape_eq]

/-- A character that is quoted plainly is read as itself, and any other as a text that begins
with another character. -/
theorem rereadChar_cases (c : Char) :
    (QuotedPlainly c ∧ rereadChar c = [c]) ∨
    (¬ QuotedPlainly c ∧ ∃ d rest, rereadChar c = d :: rest ∧ d ≠ c) := by
  unfold QuotedPlainly rereadChar
  rcases quoteChar_cases c with ⟨hquoted, -, -⟩ | ⟨d, hquoted, hshort⟩ | ⟨hletter, hquoted⟩
  · rw [hquoted]
    exact .inl ⟨List.mem_cons_self, rfl⟩
  · rw [hquoted]
    simp only [shortEscapes, List.mem_cons, Prod.mk.injEq, List.not_mem_nil, or_false] at hshort
    rcases hshort with ⟨rfl, rfl⟩ | ⟨rfl, rfl⟩ | ⟨rfl, rfl⟩ | ⟨rfl, rfl⟩ | ⟨rfl, rfl⟩ | ⟨rfl, rfl⟩
    · exact .inr ⟨by decide, '0', [], rfl, by decide⟩
    · exact .inl ⟨by decide, rfl⟩
    · exact .inr ⟨by decide, 'r', [], rfl, by decide⟩
    · exact .inl ⟨by decide, rfl⟩
    · exact .inl ⟨by decide, rfl⟩
    · exact .inl ⟨by decide, rfl⟩
  · rw [hquoted]
    exact .inr ⟨by simp, 'u', _, rfl, hletter.symm⟩

/-- A text is read as it was exactly if all its characters are quoted plainly. -/
theorem flatMap_rereadChar_eq_iff {text : List Char} :
    text.flatMap rereadChar = text ↔ ∀ c ∈ text, QuotedPlainly c := by
  induction text with
  | nil => simp
  | cons c cs ih =>
    rw [List.flatMap_cons, List.forall_mem_cons, ← ih]
    rcases rereadChar_cases c with ⟨hplain, hreread⟩ | ⟨hplain, d, rest, hreread, hd⟩
    · simp [hplain, hreread]
    · simp [hplain, hreread, hd]

/-- A quoted text is written as a string. -/
theorem written_quoted (text : String) (rest : List Char) :
    Written (.str (String.ofList (text.toList.flatMap rereadChar))) (Text.quoted text).toList
      rest := by
  have hbody : ∀ cs : List Char, Escaped (cs.flatMap Text.quoteChar) (cs.flatMap rereadChar) := by
    intro cs
    induction cs with
    | nil => exact .nil
    | cons c cs ih => exact (escaped_quoteChar c).append ih
  rw [Text.quoted, String.toList_ofList]
  exact .str (hbody text.toList)

/-! ## Rendered forms -/

namespace LexesTo

variable {text text' : List Char} {tokens tokens' : List Token}

/-- No text has no tokens. -/
theorem nil : LexesTo [] [] := by
  intro position rest _
  exact ⟨[], rfl, by simp⟩

/-- A token that is written in this way before every text begins a row of tokens. -/
theorem cons {token : Token} {piece : List Char} (hpiece : ∀ rest, Written token piece rest)
    (h : LexesTo text tokens) : LexesTo (piece ++ text) (token :: tokens) := by
  intro position rest hrest
  obtain ⟨lexemes, htokens, hscan⟩ := h (position.after piece) rest hrest
  refine ⟨⟨token, position, position.after piece⟩ :: lexemes, by rw [List.map_cons, htokens], ?_⟩
  rw [List.append_assoc, lexFrom_of_written (hpiece _), hscan, Position.after_after]
  rfl

/-- A token that is written in this way before delimiters makes up a row of tokens. -/
theorem single {token : Token} {piece : List Char}
    (hpiece : ∀ rest : List Char, (∀ c ∈ rest.head?, c ∈ delimiters) → Written token piece rest) :
    LexesTo piece [token] := by
  intro position rest hrest
  exact ⟨[⟨token, position, position.after piece⟩], rfl, lexFrom_of_written (hpiece rest hrest) _⟩

/-- A space before the text makes no difference. -/
theorem space (h : LexesTo text tokens) : LexesTo (' ' :: text) tokens := by
  intro position rest hrest
  obtain ⟨lexemes, htokens, hscan⟩ := h (position.after [' ']) rest hrest
  have hgap : Separates [' '] (text ++ rest) := .blank (by decide) .nil
  refine ⟨lexemes, htokens, ?_⟩
  rw [List.cons_append, ← List.singleton_append, lexFrom_of_separates hgap, hscan,
    Position.after_after]
  rfl

/-- Rows of tokens follow each other if the latter begins with a delimiter. -/
theorem append (h : LexesTo text tokens) (h' : LexesTo text' tokens')
    (hstart : ∃ c ∈ delimiters, text'.head? = some c) :
    LexesTo (text ++ text') (tokens ++ tokens') := by
  intro position rest hrest
  obtain ⟨c, hc, hhead⟩ := hstart
  obtain ⟨more, rfl⟩ := List.head?_eq_some_iff.mp hhead
  obtain ⟨lexemes, htokens, hscan⟩ := h position (c :: more ++ rest) (by simpa using hc)
  obtain ⟨lexemes', htokens', hscan'⟩ := h' (position.after text) rest hrest
  refine ⟨lexemes ++ lexemes', by rw [List.map_append, htokens, htokens'], ?_⟩
  rw [List.append_assoc, hscan, hscan', Position.after_after, List.append_assoc]

end LexesTo

namespace Form

/-- The tokens of forms are those of each of them. -/
theorem mem_itemTokens {token : Token} {forms : List Form} :
    token ∈ itemTokens forms ↔ ∃ form ∈ forms, token ∈ form.tokens := by
  induction forms with
  | nil => simp [itemTokens]
  | cons form rest ih => simp [itemTokens, ih]

/-- The items of a list can be written if the list can. -/
theorem Writable.items {items : List Form} (h : (list items).Writable) :
    ∀ item ∈ items, item.Writable := by
  intro item hitem text htext
  have hmem : Token.atom text ∈ itemTokens items := mem_itemTokens.mpr ⟨item, hitem, htext⟩
  exact h text (by simp [tokens, hmem])

/-- A list has plainly quoted strings exactly if all its items have. -/
theorem quotedPlainly_list_iff {items : List Form} :
    (list items).QuotedPlainly ↔ ∀ item ∈ items, item.QuotedPlainly := by
  simp only [QuotedPlainly, tokens, List.cons_append, List.mem_cons, List.mem_append,
    mem_itemTokens, reduceCtorEq, List.not_mem_nil, or_false, false_or]
  constructor
  · intro h item hitem text htext
    exact h text ⟨item, hitem, htext⟩
  · rintro h text ⟨item, hitem, htext⟩
    exact h item hitem text htext

mutual

/-- A rendered form is written with the tokens of the form that it is read as. -/
theorem lexesTo_render : ∀ form : Form, form.Writable →
    LexesTo form.render.toList form.reread.tokens
  | .atom text, h => by
    obtain ⟨hne, hinside⟩ := h text List.mem_cons_self
    have hatom (rest : List Char) (hrest : ∀ c ∈ rest.head?, c ∈ delimiters) :
        Written (.atom text) text.toList rest := by
      have hwritten := Written.atom (by simpa using hne) hinside hrest
      rwa [String.ofList_toList] at hwritten
    exact .single hatom
  | .str text, _ => .single fun rest _ => written_quoted text rest
  | .list items, h => by
    have hitems := lexesTo_renderItems items h.items
    have hclosing : LexesTo [')'] [.closing] := .single fun _ _ => .closing
    have hlist := LexesTo.cons (fun _ => .opening) (hitems.append hclosing ⟨')', by decide, rfl⟩)
    simpa [render, reread, tokens] using hlist

/-- Rendered items are written with the tokens of the forms that they are read as. -/
theorem lexesTo_renderItems : ∀ forms : List Form, (∀ form ∈ forms, form.Writable) →
    LexesTo (renderItems forms).toList (itemTokens (rereadItems forms))
  | [], _ => .nil
  | [form], h => by
    have hform := lexesTo_render form (h form List.mem_cons_self)
    simpa [renderItems, rereadItems, itemTokens] using hform
  | form :: next :: rest, h => by
    have hform := lexesTo_render form (h form List.mem_cons_self)
    have hitems := lexesTo_renderItems (next :: rest) fun item hitem =>
      h item (List.mem_cons_of_mem form hitem)
    have hboth := hform.append hitems.space ⟨' ', by decide, rfl⟩
    simpa [renderItems, rereadItems, itemTokens] using hboth

end

mutual

/-- A form is read as it was exactly if its strings are quoted plainly. -/
theorem reread_eq_iff : ∀ form : Form, form.reread = form ↔ form.QuotedPlainly
  | .atom text => by simp [reread, QuotedPlainly, tokens]
  | .str text => by
    have htext : String.ofList (text.toList.flatMap rereadChar) = text ↔
        text.toList.flatMap rereadChar = text.toList := by
      rw [← String.toList_inj, String.toList_ofList]
    simp [reread, QuotedPlainly, tokens, htext, flatMap_rereadChar_eq_iff]
  | .list items => by
    rw [reread, list.injEq, quotedPlainly_list_iff, rereadItems_eq_iff items]

/-- Items are read as they were exactly if their strings are quoted plainly. -/
theorem rereadItems_eq_iff : ∀ forms : List Form,
    rereadItems forms = forms ↔ ∀ form ∈ forms, form.QuotedPlainly
  | [] => by simp [rereadItems]
  | form :: rest => by
    rw [rereadItems, List.cons.injEq, List.forall_mem_cons, reread_eq_iff form,
      rereadItems_eq_iff rest]

end

end Form

/-- A rendered form is read as one form. -/
theorem exists_readForms_render {form : Form} (h : form.Writable) :
    ∃ top, readForms form.render = .ok [top] ∧ top.form = form.reread := by
  obtain ⟨lexemes, htokens, hscan⟩ := form.lexesTo_render h .start [] (by simp)
  have hlex : lex form.render = lexemes := by
    rwa [List.append_nil, lexFrom, List.append_nil] at hscan
  have hitems : (lex form.render).map Lexeme.token = Form.itemTokens [form.reread] := by
    rw [hlex, htokens, Form.itemTokens, Form.itemTokens, List.append_nil]
  obtain ⟨tops, hforms, hspelled⟩ := exists_spelled hitems
  obtain ⟨top, rfl, htop⟩ := List.map_eq_singleton_iff.mp hforms
  exact ⟨top, readForms_eq_ok_iff_run.mpr (Reading.run_of_spelled hspelled []), htop⟩

/-- The forms of a text can be written again. -/
theorem writable_of_readForms {source : String} {forms : List TopLevel}
    (h : readForms source = .ok forms) : ∀ top ∈ forms, top.form.Writable := by
  intro top htop text htext
  have hitems : Token.atom text ∈ Form.itemTokens (forms.map TopLevel.form) :=
    Form.mem_itemTokens.mpr ⟨top.form, List.mem_map_of_mem htop, htext⟩
  rw [itemTokens_of_readForms h] at hitems
  obtain ⟨lexeme, hlexeme, htoken⟩ := List.mem_map.mp (List.mem_filter.mp hitems).1
  obtain ⟨before, after, hsplit⟩ := List.append_of_mem hlexeme
  obtain ⟨_, piece, rest, _, _, _, hpiece, _⟩ :=
    (partitioned_lexFrom .start source.toList).exists_written hsplit
  rw [htoken] at hpiece
  cases hpiece with
  | atom hne hinside _ => exact ⟨by simpa using hne, by simpa using hinside⟩

/-- A rendered form whose atoms can stand in a text, as they do in every form that has been read
from one, is read as one form. This is the form itself exactly if quotes show each character of its
strings as it is, or by one of the escapes for a double quote, a backslash, a line feed and a
tab. -/
theorem readForms_render :
    (∀ form : Form, form.Writable →
      ∃ top, readForms form.render = .ok [top] ∧ (top.form = form ↔ form.QuotedPlainly)) ∧
    ∀ source forms, readForms source = .ok forms → ∀ top ∈ forms, top.form.Writable := by
  refine ⟨fun form h => ?_, fun source forms => writable_of_readForms⟩
  obtain ⟨top, hread, htop⟩ := exists_readForms_render h
  exact ⟨top, hread, htop ▸ form.reread_eq_iff⟩

/-- A double quote, a line feed and a backslash come back within a list of lists, but a carriage
return is read as a letter. The form of a text with a quote mark can be written again. -/
theorem readForms_render_of_escapes :
    (∃ top, readForms (Form.list [.atom "a", .list [.str "\"\n\\"]]).render = .ok [top] ∧
      top.form = .list [.atom "a", .list [.str "\"\n\\"]]) ∧
    (∃ top, readForms (Form.str "\r").render = .ok [top] ∧ top.form ≠ .str "\r") ∧
    (Form.list [.atom "b"]).Writable := by
  have hlist : (Form.list [.atom "a", .list [.str "\"\n\\"]]).Writable := by
    simp [Form.Writable, Form.tokens, Form.itemTokens, delimiters, gapCharacters]
  have hplain : (Form.list [.atom "a", .list [.str "\"\n\\"]]).QuotedPlainly := by
    have hquote : QuotedPlainly '"' := by decide
    have hlineFeed : QuotedPlainly '\n' := by decide
    have hbackslash : QuotedPlainly '\\' := by decide
    simp [Form.QuotedPlainly, Form.tokens, Form.itemTokens, hquote, hlineFeed, hbackslash]
  have hstr : (Form.str "\r").Writable := by simp [Form.Writable, Form.tokens]
  have hreturn : ¬ (Form.str "\r").QuotedPlainly := by
    have hchar : ¬ QuotedPlainly '\r' := by decide
    simpa [Form.QuotedPlainly, Form.tokens] using hchar
  obtain ⟨top, hread, htop⟩ := readForms_render.1 _ hlist
  obtain ⟨top', hread', htop'⟩ := readForms_render.1 _ hstr
  have hquote : readForms "('b)" = .ok [⟨1, .list [.atom "b"]⟩] := by with_unfolding_all rfl
  exact ⟨⟨top, hread, htop.mpr hplain⟩, ⟨top', hread', fun h => hreturn (htop'.mp h)⟩,
    readForms_render.2 _ _ hquote _ List.mem_cons_self⟩

end Stubgen.Defs
