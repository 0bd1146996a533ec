import TreeWalk.Console.Outline
import TreeWalk.Console.Table

/-! # The console

The terminal of a program whose output goes to no screen: without colours, and with lines of a
width that is set beforehand.  It knows no emoji.

## Key results

* `Terminal.console` is the terminal. -/

namespace TreeWalk

/-- The error for a closing tag that cannot stand where it does. -/
def Markup.Fault.error (fault : Markup.Fault) : MarkupError :=
  ⟨fault.message⟩

namespace Terminal

/-- The console with lines of the given width. -/
def console (width : Nat) : Terminal where
  width
  isEmoji _ := false
  literal text := ofLines (Wrap.lines width text.toList)
  marked text := do
    let shown ← (Markup.plain text.toList).mapError Markup.Fault.error
    return ofLines (Wrap.lines width shown)
  table table := do
    let shown ← table.plain.mapError Markup.Fault.error
    return ofLines (shown.lines width)
  outline outline := do
    let shown ← outline.plain.mapError Markup.Fault.error
    return ofLines (shown.lines width)

end Terminal

end TreeWalk
