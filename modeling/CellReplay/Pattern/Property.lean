import CellReplay.Pattern.CharSet
import CellReplay.Pattern.Tree

/-!
# Pattern.Property

Names under which a pattern can ask for a property of characters: general categories, scripts and
a few properties that hold or do not. Case, spaces, `_`, `-` and a leading `is` make no difference
to a name.

* `Property.ofName?`  — a name that stands alone.
* `Property.ofValue?` — a value of a named property.
* `PropertyName.set?` — the characters that a pattern asks for, where these tables know the name.
-/

namespace CellReplay.Pattern

open Text

/-- A name without what makes no difference to it. The short name of comments is the one that
needs its `is`. -/
def plainName (cs : List Char) : String :=
  let keep := fun (cs : List Char) =>
    (cs.filter fun c => c.toNat < 0x80 && !(c == ' ' || c == '_' || c == '-')).map Char.toLower
  match cs with
  | a :: b :: rest =>
    if a.toLower == 'i' && b.toLower == 's' then
      let name := keep rest
      if name = ['c'] then "isc" else String.ofList name
    else String.ofList (keep cs)
  | cs => String.ofList (keep cs)

/-- General categories and their unions, by their names. -/
def categoryNames : List (List String × List Category) := [
  (["l", "letter"], [.lu, .ll, .lt, .lm, .lo]),
  (["lc", "casedletter"], [.lu, .ll, .lt]),
  (["lu", "uppercaseletter"], [.lu]), (["ll", "lowercaseletter"], [.ll]),
  (["lt", "titlecaseletter"], [.lt]), (["lm", "modifierletter"], [.lm]),
  (["lo", "otherletter"], [.lo]),
  (["m", "mark", "combiningmark"], [.mn, .mc, .me]),
  (["mn", "nonspacingmark"], [.mn]), (["mc", "spacingmark"], [.mc]),
  (["me", "enclosingmark"], [.me]),
  (["n", "number"], [.nd, .nl, .no]),
  (["nd", "decimalnumber", "digit"], [.nd]), (["nl", "letternumber"], [.nl]),
  (["no", "othernumber"], [.no]),
  (["p", "punctuation", "punct"], [.pc, .pd, .ps, .pe, .pi, .pf, .po]),
  (["pc", "connectorpunctuation"], [.pc]), (["pd", "dashpunctuation"], [.pd]),
  (["ps", "openpunctuation"], [.ps]), (["pe", "closepunctuation"], [.pe]),
  (["pi", "initialpunctuation"], [.pi]), (["pf", "finalpunctuation"], [.pf]),
  (["po", "otherpunctuation"], [.po]),
  (["s", "symbol"], [.sm, .sc, .sk, .so]),
  (["sm", "mathsymbol"], [.sm]), (["sc", "currencysymbol"], [.sc]),
  (["sk", "modifiersymbol"], [.sk]), (["so", "othersymbol"], [.so]),
  (["z", "separator"], [.zs, .zl, .zp]),
  (["zs", "spaceseparator"], [.zs]), (["zl", "lineseparator"], [.zl]),
  (["zp", "paragraphseparator"], [.zp]),
  (["c", "other"], [.cc, .cf, .co, .cn]),
  (["cc", "control", "cntrl"], [.cc]), (["cf", "format"], [.cf]), (["co", "privateuse"], [.co]),
  (["cn", "unassigned"], [.cn])]

def categoryProperty? (name : String) : Option Property :=
  match name with
  | "any" => some .any
  | "assigned" => some .assigned
  | "ascii" => some .ascii
  | _ => (categoryNames.find? (name ∈ ·.1)).map fun e => .category e.2

def scriptProperty? (name : String) : Option Property :=
  (scriptNames.find? fun e => name = plainName e.1.toList || name = plainName e.2.toList).map
    fun e => .script e.1

/-- Properties that hold or do not hold, by their names. -/
def binaryProperty? (name : String) : Option Property :=
  match name with
  | "alphabetic" | "alpha" => some .alphabetic
  | "cased" => some .cased
  | "lowercase" | "lower" => some .lowercase
  | "uppercase" | "upper" => some .uppercase
  | "whitespace" | "wspace" | "space" => some .blank
  | _ => none

def Property.ofName? (name : List Char) : Option Property :=
  let name := plainName name
  (binaryProperty? name).or ((categoryProperty? name).or (scriptProperty? name))

def Property.ofValue? (property value : List Char) : Option Property :=
  match plainName property with
  | "generalcategory" | "gc" => categoryProperty? (plainName value)
  | "script" | "sc" => scriptProperty? (plainName value)
  | _ => none

def PropertyName.set? : PropertyName → Option CharSet
  | .named name => (Property.ofName? name).map .property
  | .valued name value => (Property.ofValue? name value).map .property

end CellReplay.Pattern
