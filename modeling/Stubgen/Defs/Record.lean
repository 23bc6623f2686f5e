import Stubgen.Defs.Fault
import Stubgen.Ledger
import Stubgen.Text.Blank
import Stubgen.Text.Search

/-!
# Definition records

A definition `(define-kind name (tag value …) …)` is turned into a record of its kind, its
name and the values under each tag. Values under a repeated tag are joined in the order of
the text.
-/

namespace Stubgen.Defs

/-- What a definition defines. -/
inductive Kind where
  | object
  | interface
  | enum
  | flags
  | boxed
  | pointer
  | function
  | method
  /-- Any other word after `define-`. -/
  | other (label : String)
  deriving DecidableEq

namespace Kind

/-- The kind named by a word. -/
def ofLabel : String → Kind
  | "object" => object
  | "interface" => interface
  | "enum" => enum
  | "flags" => flags
  | "boxed" => boxed
  | "pointer" => pointer
  | "function" => function
  | "method" => method
  | label => other label

/-- The word that names a kind. -/
def label : Kind → String
  | object => "object"
  | interface => "interface"
  | enum => "enum"
  | flags => "flags"
  | boxed => "boxed"
  | pointer => "pointer"
  | function => "function"
  | method => "method"
  | other label => label

/-- The kind announced by the head of a definition. -/
def ofHead? (head : String) : Option Kind :=
  (Text.dropStart? "define-".toList head.toList).map fun label => ofLabel (String.ofList label)

/-- The kinds whose definitions make a class of the stub. -/
def isClassLike : Kind → Bool
  | object | interface | enum | flags | boxed | pointer => true
  | function | method | other _ => false

end Kind

/-- A definition. -/
structure Record where
  kind : Kind
  name : String
  /-- The values under each tag. -/
  tags : Ledger (List Form)

namespace Record

/-- Whether the definition has an entry with this tag. -/
def has (record : Record) (tag : String) : Bool :=
  (record.tags.get? tag).isSome

/-- The values under a tag, none if the tag is absent. -/
def values (record : Record) (tag : String) : List Form :=
  (record.tags.get? tag).getD []

/-- The text of the first value under a tag, without the blanks around it. -/
def firstText? (record : Record) (tag : String) : Option String :=
  (record.values tag).head?.bind fun form => form.text?.map Text.trimmed

/-- Adds an entry of the definition called `name`, values at the end of their tag. -/
def addEntry (name : String) (record : Record) (entry : Form) : Except Cause Record :=
  match entry.head? with
  | none => .error (.malformedEntry entry name)
  | some tag =>
    let values := (entry.items?.getD []).drop 1
    .ok { record with tags := record.tags.revise tag fun old => old.getD [] ++ values }

/-- The record of a form that is a definition. -/
def ofForm (form : Form) : Except Cause Record :=
  match form with
  | .list items =>
    match form.head? with
    | none => .error (.noHead form)
    | some head =>
      match Kind.ofHead? head with
      | none => .error (.unknownHead head)
      | some kind =>
        match items[1]?.bind Form.text? with
        | none => .error (.noName head)
        | some name =>
          (items.drop 2).foldlM (addEntry name) ⟨kind, Text.trimmed name, .empty⟩
  | _ => .error (.notAList form)

end Record

end Stubgen.Defs
