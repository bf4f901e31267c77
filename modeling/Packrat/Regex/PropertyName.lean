import Packrat.Regex.CharSet

/-!
# Names of character properties

How a regular expression names a property of the Unicode standard: loosely, without regard to
case, blanks, hyphens, underscores and a leading `is`.
-/

set_option autoImplicit false

namespace Packrat.Regex

/-- A name reduced to what loose comparison looks at. -/
def looseName (name : String) : String :=
  let kept (c : Char) : Bool := c ≠ ' ' && c ≠ '_' && c ≠ '-' && c.toNat < 128
  let lower := name.toList.map Char.toLower
  match lower with
  | 'i' :: 's' :: rest =>
    let rest := rest.filter kept
    if rest = ['c'] then "isc" else String.ofList rest
  | _ => String.ofList (lower.filter kept)

/-- The general categories under the loose names of each and of the groups of them. -/
def categoriesNamed? : String → Option (List Unicode.Category)
  | "l" | "letter" => some [.lu, .ll, .lt, .lm, .lo]
  | "lc" | "casedletter" => some [.lu, .ll, .lt]
  | "lu" | "uppercaseletter" => some [.lu]
  | "ll" | "lowercaseletter" => some [.ll]
  | "lt" | "titlecaseletter" => some [.lt]
  | "lm" | "modifierletter" => some [.lm]
  | "lo" | "otherletter" => some [.lo]
  | "m" | "mark" | "combiningmark" => some [.mn, .mc, .me]
  | "mn" | "nonspacingmark" => some [.mn]
  | "mc" | "spacingmark" => some [.mc]
  | "me" | "enclosingmark" => some [.me]
  | "n" | "number" => some [.nd, .nl, .no]
  | "nd" | "decimalnumber" | "digit" => some [.nd]
  | "nl" | "letternumber" => some [.nl]
  | "no" | "othernumber" => some [.no]
  | "p" | "punctuation" | "punct" => some [.pc, .pd, .ps, .pe, .pi, .pf, .po]
  | "pc" | "connectorpunctuation" => some [.pc]
  | "pd" | "dashpunctuation" => some [.pd]
  | "ps" | "openpunctuation" => some [.ps]
  | "pe" | "closepunctuation" => some [.pe]
  | "pi" | "initialpunctuation" => some [.pi]
  | "pf" | "finalpunctuation" => some [.pf]
  | "po" | "otherpunctuation" => some [.po]
  | "s" | "symbol" => some [.sm, .sc, .sk, .so]
  | "sm" | "mathsymbol" => some [.sm]
  | "sc" | "currencysymbol" => some [.sc]
  | "sk" | "modifiersymbol" => some [.sk]
  | "so" | "othersymbol" => some [.so]
  | "z" | "separator" => some [.zs, .zl, .zp]
  | "zs" | "spaceseparator" => some [.zs]
  | "zl" | "lineseparator" => some [.zl]
  | "zp" | "paragraphseparator" => some [.zp]
  | "c" | "other" => some [.cc, .cf, .cs, .co, .cn]
  | "cc" | "control" | "cntrl" => some [.cc]
  | "cf" | "format" => some [.cf]
  | "cs" | "surrogate" => some [.cs]
  | "co" | "privateuse" => some [.co]
  | "cn" | "unassigned" => some [.cn]
  | _ => none

/-- The set that a loose name of a category, or of a set that counts as one, stands for. -/
def categorySetNamed? (name : String) : Option CharSet :=
  match name with
  | "any" => some .all
  | "ascii" => some (.range '\x00' '\x7f')
  | "assigned" => some (.complement (.property (.category [.cn])))
  | name => (categoriesNamed? name).map fun categories => .property (.category categories)

/-- The set that a name alone stands for. -/
def propertySetNamed? (name : String) : Option CharSet :=
  match looseName name with
  | "alphabetic" | "alpha" => some (.property .alphabetic)
  | "lowercase" | "lower" => some (.property .lowercase)
  | "uppercase" | "upper" => some (.property .uppercase)
  | "whitespace" | "wspace" | "space" => some (.property .whiteSpace)
  | "xidstart" | "xids" => some (.property .xidStart)
  | "xidcontinue" | "xidc" => some (.property .xidContinue)
  | loose => categorySetNamed? loose

/-- The set that a property's name and a value of the property stand for. -/
def valueSetNamed? (name value : String) : Option CharSet :=
  match looseName name with
  | "generalcategory" | "gc" | "category" => categorySetNamed? (looseName value)
  | _ => none

end Packrat.Regex
