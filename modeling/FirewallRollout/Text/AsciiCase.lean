/-!
# Case folding of ASCII letters

Names of tables, actions, protocols, formats and statuses are compared after folding the letters
of ASCII; every other character stands for itself, so that a dotless or long letter is no match.
-/
namespace FirewallRollout.Text

/-- A text with its ASCII capitals made small. -/
def foldLower (s : String) : String := .ofList (s.toList.map Char.toLower)

/-- A text with its small ASCII letters made capitals. -/
def foldUpper (s : String) : String := .ofList (s.toList.map Char.toUpper)

/-- Whether a character is a letter or a digit of ASCII. -/
def isAsciiAlphanumeric (c : Char) : Bool := c.isAlpha || c.isDigit

end FirewallRollout.Text
