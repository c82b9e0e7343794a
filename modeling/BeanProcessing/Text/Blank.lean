/-!
# Blank text

A text is blank when every character of it is white space in the sense of the Unicode property
`White_Space`, which has the twenty-five members listed here.
-/

namespace BeanProcessing.Blank

/-- The white-space characters that are not ASCII. -/
def wideBlanks : List Char :=
  ['\u0085', '\u00a0', '\u1680', '\u2000', '\u2001', '\u2002', '\u2003', '\u2004', '\u2005',
    '\u2006', '\u2007', '\u2008', '\u2009', '\u200a', '\u2028', '\u2029', '\u202f', '\u205f',
    '\u3000']

/-- Whether a character has the property `White_Space`. -/
def isBlankChar (c : Char) : Bool :=
  c == ' ' || ('\t' ≤ c && c ≤ '\r') || wideBlanks.contains c

/-- Whether a text is empty or has white space only. -/
def isBlank (text : String) : Bool :=
  text.toList.all isBlankChar

end BeanProcessing.Blank
