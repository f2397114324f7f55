import Mathlib.Data.List.DropRight
import Mathlib.Data.List.Infix
import Mathlib.Tactic.SplitIfs

namespace openmeterapi

/-- A string as its runes, the replacement character for what is not UTF-8. -/
abbrev Runes := List Char

/-- `unicode.IsSpace`. -/
def isSpace (c : Char) : Bool :=
  (9 ≤ c.toNat && c.toNat ≤ 13) || (0x2000 ≤ c.toNat && c.toNat ≤ 0x200A) ||
    c.toNat ∈ [0x20, 0x85, 0xA0, 0x1680, 0x2028, 0x2029, 0x202F, 0x205F, 0x3000]

/-- `unicode.ToLower`. -/
structure LowerCase where
  toLower : Char → Char
  /-- What is in lower case stays as it is. -/
  idem : ∀ c, toLower (toLower c) = toLower c
  space : ∀ c, isSpace (toLower c) = isSpace c
  ascii : ∀ c : Char, c.toNat < 128 → toLower c = c.toLower

/-- `strings.TrimSpace`. -/
def trimSpace (s : Runes) : Runes := (s.dropWhile isSpace).rdropWhile isSpace

/-- `regexp.ReplaceAllString(s, "")` for a pattern anchored at the end: the leftmost tail
that it describes goes. -/
def cutTail (describes : Runes → Bool) : Runes → Runes
  | [] => []
  | c :: rest => if describes (c :: rest) then [] else c :: cutTail describes rest

/-- `-v\d+:\d+`. -/
def bedrockVersionSuffix : Runes → Bool
  | '-' :: 'v' :: rest =>
    match rest.takeWhile Char.isDigit, rest.dropWhile Char.isDigit with
    | _ :: _, ':' :: minor => minor ≠ [] && minor.all Char.isDigit
    | _, _ => false
  | _ => false

/-- `-\d{8}|-\d{4}-\d{2}-\d{2}`. -/
def dateSuffix : Runes → Bool
  | ['-', a, b, c, d, e, f, g, h] => [a, b, c, d, e, f, g, h].all Char.isDigit
  | ['-', a, b, c, d, '-', e, f, '-', g, h] => [a, b, c, d, e, f, g, h].all Char.isDigit
  | _ => false

/-- `^(us|eu|ap)\.`. -/
def bedrockRegionPrefix : List Runes := [['u', 's', '.'], ['e', 'u', '.'], ['a', 'p', '.']]

def cutRegion (s : Runes) : Runes :=
  match bedrockRegionPrefix.find? (·.isPrefixOf s) with
  | some region => s.drop region.length
  | none => s

/-- `(\d)\.(\d)`, replaced by `${1}-${2}` from the left, no two matches overlapping. -/
def dotVersion : Runes → Runes
  | a :: dot :: b :: rest =>
    if a.isDigit ∧ dot = '.' ∧ b.isDigit then a :: '-' :: b :: dotVersion rest
      else a :: dotVersion (dot :: b :: rest)
  | s => s

def modelAliases : List (Runes × Runes) :=
  [("deepseek-chat".toList, "deepseek-v3".toList),
    ("deepseek-reasoner".toList, "deepseek-r1".toList)]

def providerAliases : List (Runes × Runes) :=
  [("azure_ai".toList, "azure".toList), ("bedrock_converse".toList, "bedrock".toList),
    ("amazon-bedrock".toList, "bedrock".toList), ("gemini".toList, "google".toList),
      ("aws".toList, "amazon".toList),
    ("facebook".toList, "meta".toList), ("mistralai".toList, "mistral".toList),
      ("x-ai".toList, "xai".toList),
    ("nano-gpt".toList, "nanogpt".toList), ("nano_gpt".toList, "nanogpt".toList)]

section Normalize

variable (u : LowerCase)

/-- `strings.ToLower` of the trimmed string. -/
def lowered (s : Runes) : Runes := (trimSpace s).map u.toLower

def normalizeProvider (provider : Runes) : Runes :=
  let provider := lowered u provider
  if "vertex_ai-".toList.isPrefixOf provider || "vertex_ai_".toList.isPrefixOf provider
    then "vertex_ai".toList
  else (providerAliases.lookup provider).getD provider

/-- What is left of a model ID before its dots and aliases are looked at. -/
def stem (modelID : Runes) : Runes :=
  cutRegion (cutTail dateSuffix (cutTail bedrockVersionSuffix (lowered u modelID)))

def NormalizeModelID (provider modelID : Runes) : Runes × Runes :=
  let modelID := dotVersion (stem u modelID)
  (normalizeProvider u provider, (modelAliases.lookup modelID).getD modelID)

end Normalize

end openmeterapi
