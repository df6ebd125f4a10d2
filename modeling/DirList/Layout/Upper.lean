import DirList.Layout.Renderer
import DirList.Text.UpperCase

/-!
# Names in upper case

A renderer beside the ones that serve display modes at first: each visible name on a line of its
own, in upper case and with an exclamation mark. It is there to be put into a renderer table.
-/

namespace DirList

namespace Layout

/-- The visible names of a directory in upper case. -/
def upper (_ : Config) (descriptor : Descriptor) : String :=
  lines (descriptor.visibleEntries.map fun entry => upperCase entry.name ++ "!")

end Layout

/-- The renderer of names in upper case. -/
def Renderer.upper : Renderer := ofText "UpperRenderer" Layout.upper

end DirList
