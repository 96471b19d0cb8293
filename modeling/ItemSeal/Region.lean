/-!
Names of regions: which of them can stand in a host name, and the domain
that a region's hosts are in.
-/

namespace ItemSeal

namespace Text

/-- The parts of a text between separators. -/
def fields (separator : Char) : List Char → List (List Char)
  | [] => [[]]
  | c :: rest =>
      if c = separator then [] :: fields separator rest
      else
        match fields separator rest with
        | first :: others => (c :: first) :: others
        | [] => [[c]]

end Text

namespace Region

/-- The number of characters that a label has at most. -/
def labelLimit : Nat := 63

/-- The text is one part of a host name: letters and digits of ASCII and
hyphens, no hyphen first. -/
def isLabel (text : List Char) : Bool :=
  !text.isEmpty && decide (text.length ≤ labelLimit) && text.head? != some '-' &&
    text.all fun c => c == '-' || c.isAlphanum

/-- The region can stand in a host name: each part between dots is a label. -/
def isHostName (region : String) : Bool :=
  (Text.fields '.' region.toList).all isLabel

/-- What stands before the last two parts of a name between hyphens, if those
are a word and a number. -/
def groupOf? (region : String) : Option (List String) :=
  match (Text.fields '-' region.toList).reverse with
  | number :: word :: group =>
      if !number.isEmpty && number.all Char.isDigit &&
          !word.isEmpty && word.all Char.isAlphanum then
        some (group.reverse.map String.ofList)
      else none
  | _ => none

/-- Regions whose hosts are in a domain of their own. -/
structure Group where
  domain : String
  /-- What the names of the regions begin with. -/
  parts : List String
  /-- The name that stands for all of them together. -/
  together : Option String

/-- The groups that do not use the common domain. -/
def groups : List Group := [
  ⟨"amazonaws.com.cn", ["cn"], some "aws-cn-global"⟩,
  ⟨"amazonaws.eu", ["eusc", "de"], none⟩,
  ⟨"c2s.ic.gov", ["us", "iso"], some "aws-iso-global"⟩,
  ⟨"sc2s.sgov.gov", ["us", "isob"], some "aws-iso-b-global"⟩,
  ⟨"cloud.adc-e.uk", ["eu", "isoe"], some "aws-iso-e-global"⟩,
  ⟨"csp.hci.ic.gov", ["us", "isof"], some "aws-iso-f-global"⟩]

/-- The domain of all other regions. -/
def commonDomain : String := "amazonaws.com"

/-- The domain that a region's hosts are in. -/
def domain (region : String) : String :=
  let own := groups.find? fun group =>
    group.together == some region || groupOf? region == some group.parts
  (own.map (·.domain)).getD commonDomain

end Region

end ItemSeal
