import Stubgen.ModuleList.Basic

/-!
# The built-in module list

Without a module list of its own, a run looks for the modules of the four source trees that
bind the toolkit and the desktop libraries.
-/

namespace Stubgen.ModuleList

/-- The modules that bind the toolkit. -/
def gtkModules : List (String × List String) := [
  ("gtk._gtk", ["gtk/gtk-base.defs", "gtk/gtk-2.10.defs", "gtk/gtk.defs"]),
  ("gtk.gdk", ["gtk/gdk-base.defs", "gtk/gdk-2.10.defs", "gtk/gdk.defs"]),
  ("gtk.glade", ["gtk/libglade.defs"]),
  ("atk", ["atk.defs"]),
  ("pango", ["pango.defs"]),
  ("pangocairo", ["pangocairo.defs"])]

/-- The modules that bind the desktop platform. -/
def desktopModules : List (String × List String) := [
  ("gnome._gnome", ["gnome/gnome.defs"]),
  ("gnome.ui", ["ui.defs"]),
  ("gconf", ["gconf/gconf.defs"]),
  ("gnomecanvas", ["gnomecanvas/canvas.defs"])]

/-- The modules that bind libraries of desktop applications. -/
def applicationModules : List (String × List String) := [
  ("gnomeapplet", ["gnomeapplet/applet.defs"]),
  ("gnomedesktop._gnomedesktop", ["gnomedesktop/_gnomedesktop.defs"]),
  ("gnomekeyring", ["gnomekeyring/gnomekeyring.defs"]),
  ("gnomeprint._print", ["gnomeprint/print.defs"]),
  ("gnomeprint.ui", ["gnomeprint/printui.defs"]),
  ("gtksourceview", ["gtksourceview/gtksourceview.defs"]),
  ("mediaprofiles", ["mediaprofiles/mediaprofiles.defs"]),
  ("metacity", ["metacity/metacity.defs"]),
  ("nautilusburn", ["nautilusburn/nautilus_burn.defs"]),
  ("rsvg", ["rsvg/rsvg.defs"]),
  ("totem.plparser", ["totem/plparser.defs"]),
  ("wnck", ["wnck/wnck.defs"])]

/-- The modules that bind further libraries. -/
def extraModules : List (String × List String) := [
  ("egg.tray", ["egg/tray/trayicon.defs"]),
  ("egg.recent", ["egg/recent/eggrecent.defs"]),
  ("gda", ["gda/gda.defs"]),
  ("gdl", ["gdl/gdl.defs"]),
  ("gksu._gksu", ["gksu/gksu.defs"]),
  ("gksu.ui", ["gksu/gksuui.defs"]),
  ("gtkhtml2", ["gtkhtml2/gtkhtml2.defs"]),
  ("gtkmozembed", ["gtkmozembed/gtkmozembed.defs"]),
  ("gtkspell", ["gtkspell/gtkspell.defs"])]

/-- The modules of all four source trees, seen from a source directory. -/
def builtIn (directory : Files.Path) : List ModuleSpec :=
  (gtkModules ++ desktopModules ++ applicationModules ++ extraModules).map fun entry =>
    specOf directory entry.1 entry.2

end Stubgen.ModuleList
