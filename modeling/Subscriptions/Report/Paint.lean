namespace Subscriptions

/-- How a text is shown on a terminal. -/
inductive Style
  | error
  | warning
  | info
  | problem
  | doubt
  | fine
  | rule
  | faint
  | file
  | heading
deriving Repr, DecidableEq, Inhabited

namespace Style

def codes : Style → String
  | .error => "1;31"
  | .warning => "1;33"
  | .info => "34"
  | .problem => "31"
  | .doubt => "33"
  | .fine => "32"
  | .rule => "36"
  | .faint => "2"
  | .file => "4"
  | .heading => "1"

def start (s : Style) : String := "\x1b[" ++ s.codes ++ "m"

def stop : String := "\x1b[0m"

end Style

/-- The text with the style taken up again after each end of a style inside it. -/
def restyled (start : String) : List Char → String
  | '\x1b' :: '[' :: '0' :: 'm' :: cs => Style.stop ++ start ++ restyled start cs
  | c :: cs => c.toString ++ restyled start cs
  | [] => ""

def paint (colored : Bool) (style : Style) (text : String) : String :=
  if colored then style.start ++ restyled style.start text.toList ++ Style.stop else text

theorem paint_plain (style : Style) (text : String) : paint false style text = text := rfl

end Subscriptions
