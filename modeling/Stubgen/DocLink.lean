import Stubgen.Text.Blank
import Stubgen.Text.Lowercase

/-!
# Links to documentation

A documented class or method has a page on one of two sites. The link follows from the
native class name, the module and the name of the method; whether the page exists is not
checked.
-/

namespace Stubgen

/-- The site that links lead to. -/
inductive DocStyle where
  | pygtk
  | gnome
  deriving DecidableEq

namespace DocStyle

instance : Inhabited DocStyle := ⟨pygtk⟩

/-- The style named by a text; neither case nor blanks around it matter. -/
def ofName? (name : String) : Option DocStyle :=
  match Text.lowercase (Text.trimmed name) with
  | "pygtk" => some pygtk
  | "gnome" => some gnome
  | _ => none

/-- The beginning of every link to the site. -/
def site : DocStyle → String
  | pygtk => "http://www.pygtk.org/docs/pygtk"
  | gnome => "http://developer.gnome.org/doc/API/2.0"

end DocStyle

/-- The name of the method that makes an instance. -/
def constructorName : String := "__init__"

namespace DocLink

/-- The text with hyphens in place of underscores. -/
def hyphenated (s : String) : String :=
  String.ofList (s.toList.map fun c => if c = '_' then '-' else c)

/-- The part of a page of the first site that describes a method. -/
def pygtkAnchor (page method : String) : String :=
  if method = constructorName then "#constructor-" ++ page
  else "#method-" ++ page ++ "--" ++ hyphenated (Text.lowercase method)

/-- The directory of the second site that describes a module. -/
def gnomeDirectory (module : String) : String :=
  let directory := Text.lowercase module
  if directory = "g" then "gobject" else directory

/-- The link to a class, or to one of its methods, in a known module. -/
def page (style : DocStyle) (module className : String) (method? : Option String) : String :=
  match style with
  | .pygtk =>
    let page := Text.lowercase className
    style.site ++ "/class-" ++ page ++ ".html" ++ (method?.map (pygtkAnchor page)).getD ""
  | .gnome =>
    style.site ++ "/" ++ gnomeDirectory module ++ "/" ++ className ++ ".html" ++
      (method?.map fun method => "#" ++ hyphenated method).getD ""

/-- The link to a class, or to one of its methods, if its module is known. -/
def url? (style : DocStyle) (module? : Option String) (className : String)
    (method? : Option String) : Option String :=
  module?.map fun module => page style module className method?

/-- The line of a documentation block that holds a link. -/
def line? (style : DocStyle) (module? : Option String) (className : String)
    (method? : Option String) : Option String :=
  (url? style module? className method?).map ("Docs: " ++ ·)

end DocLink

end Stubgen
