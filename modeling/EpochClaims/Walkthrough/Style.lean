/-!
# Styled lines

The lines of the walkthrough are styled by escape sequences for terminals.
-/

namespace EpochClaims

namespace Style

/-- The sequence that ends all styles. -/
def reset : String := "\x1b[0m"

/-- The sequence for bold text. -/
def bold : String := "\x1b[1m"

/-- The sequence for red text. -/
def red : String := "\x1b[31m"

/-- The sequence for green text. -/
def green : String := "\x1b[32m"

/-- The sequence for yellow text. -/
def yellow : String := "\x1b[33m"

/-- The sequence for magenta text. -/
def magenta : String := "\x1b[35m"

/-- The sequence for cyan text. -/
def cyan : String := "\x1b[36m"

/-- The sequence for gray text. -/
def gray : String := "\x1b[90m"

/-- The first line of a program. -/
def heading (text : String) : String := bold ++ cyan ++ text ++ reset

/-- The line that opens a chapter, below a blank one. -/
def chapter (title : String) : String :=
  "\n" ++ bold ++ magenta ++ "=== " ++ title ++ " ===" ++ reset

/-- A value under its name. -/
def info (label value : String) : String := bold ++ label ++ ":" ++ reset ++ " " ++ value

/-- Something that went well. -/
def success (message : String) : String := green ++ "✔ " ++ message ++ reset

/-- Something to be careful about. -/
def warning (message : String) : String := yellow ++ "⚠ " ++ message ++ reset

/-- Something that went wrong. -/
def failure (message : String) : String := red ++ "✘ " ++ message ++ reset

/-- An entry of a list. -/
def bullet (text : String) : String := "  " ++ gray ++ "•" ++ reset ++ " " ++ text

end Style

end EpochClaims
