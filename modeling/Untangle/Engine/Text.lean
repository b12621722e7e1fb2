import Mathlib.Data.List.Basic

/-!
# `Engine.Text` — the string operations narration matching rests on

Model of the text half of `engine/packs.py` (`normalize_narration`) and `engine/evidence.py` (the two token
patterns). Strings are sequences of code points. What the interpreter takes from its Unicode tables (NFKC
normalisation, lower-casing, the printable form of a string) is a parameter, so every result holds for
whatever those tables say; white space and the character classes of the two patterns are spelled out.
-/

namespace Untangle

/-- The interpreter's Unicode tables, as the engine reaches them. -/
structure Unicode where
  /-- `unicodedata.normalize("NFKC", s)` -/
  nfkc : String → String
  /-- `s.lower()` -/
  lower : String → String
  /-- `repr(s)` -/
  repr : String → String

/-- The tables on ASCII text, where NFKC changes nothing (`repr` is the one of strings without quotes). -/
def asciiUnicode : Unicode where
  nfkc := id
  lower := fun s => String.ofList (s.toList.map Char.toLower)
  repr := fun s => "'" ++ s ++ "'"

/-! ## White space -/

/-- The white-space code points of `str.isspace` and of `\s`. -/
def isSpace (c : Char) : Bool :=
  let n := c.toNat
  (9 ≤ n && n ≤ 13) || (28 ≤ n && n ≤ 32) || n == 0x85 || n == 0xA0 || n == 0x1680 ||
    (0x2000 ≤ n && n ≤ 0x200A) || n == 0x2028 || n == 0x2029 || n == 0x202F || n == 0x205F || n == 0x3000

/-- `s.strip()`. -/
def strip (s : String) : String :=
  String.ofList (((s.toList.dropWhile isSpace).reverse.dropWhile isSpace).reverse)

/-- `re.sub(r"\s+", " ", s)`; `inRun` says that the run being read has already produced its space. -/
def collapseSpace (inRun : Bool) : List Char → List Char
  | [] => []
  | c :: cs =>
    if isSpace c then (if inRun then collapseSpace true cs else ' ' :: collapseSpace true cs)
    else c :: collapseSpace false cs

/-- `_ZERO_WIDTH_AND_INVISIBLE`: zero-width spaces and joiners, formatting characters, direction marks. -/
def isInvisible (c : Char) : Bool :=
  [0x200B, 0x200C, 0x200D, 0x200E, 0x200F, 0xFEFF, 0x2060, 0x00AD, 0x202A, 0x202B, 0x202C, 0x202D,
    0x202E].contains c.toNat

/-- The boundary-preserving narration normaliser. -/
def normalizeNarration (U : Unicode) (text : String) : String :=
  if text = "" then ""
  else
    let normalized := U.nfkc text
    let withBoundaries := normalized.toList.map fun c => if isInvisible c then ' ' else c
    strip (String.ofList (collapseSpace false withBoundaries))

/-! ## Substrings -/

def isInfix (needle : List Char) : List Char → Bool
  | [] => needle.isEmpty
  | c :: cs => needle.isPrefixOf (c :: cs) || isInfix needle cs

/-- `needle in text`. -/
def isIn (needle text : String) : Bool := isInfix needle.toList text.toList

/-- `text.endswith(suffix)`. -/
def endsWith (text suffix : String) : Bool := suffix.toList.isSuffixOf text.toList

/-! ## The token patterns

Both patterns ignore case, so `[a-z]` also matches the four non-ASCII letters whose case variants are ASCII:
`İ`, `ı`, `ſ` and the Kelvin sign. `[0-9]` is the ASCII digits. -/

def isDigit (c : Char) : Bool := 48 ≤ c.toNat && c.toNat ≤ 57

/-- `[0-9a-z]` under `re.IGNORECASE`. -/
def isAlnum (c : Char) : Bool :=
  let n := c.toNat
  isDigit c || (97 ≤ n && n ≤ 122) || (65 ≤ n && n ≤ 90) || n == 0x130 || n == 0x131 || n == 0x17F ||
    n == 0x212A

/-- `[0-9]{10}[a-z0-9]{6}(?![0-9a-z])` at the head of the text. -/
def utrHere (cs : List Char) : Bool :=
  let window := cs.take 16
  window.length == 16 && (window.take 10).all isDigit && (window.drop 10).all isAlnum &&
    ((cs.drop 16).head?.all fun c => !isAlnum c)

/-- All matches of `_UTR`, left to right; `afterAlnum` is the look-behind. A match runs to the end of its
    run of class characters, so no other match starts inside it and the scan need not skip. -/
def utrTokensFrom (afterAlnum : Bool) : List Char → List String
  | [] => []
  | c :: cs =>
    (if !afterAlnum && utrHere (c :: cs) then [String.ofList ((c :: cs).take 16)] else []) ++
      utrTokensFrom (isAlnum c) cs

/-- Maximal runs of class characters; `run` is the current one, reversed. -/
def alnumRuns (run : List Char) : List Char → List (List Char)
  | [] => [run.reverse]
  | c :: cs => if isAlnum c then alnumRuns (c :: run) cs else run.reverse :: alnumRuns [] cs

/-- All matches of `_ALNUM` (`[a-z0-9]{5,}`). -/
def alnumTokens (text : String) : List String :=
  ((alnumRuns [] text.toList).filter fun run => 5 ≤ run.length).map String.ofList

/-- Extract 16-character Razorpay-shaped UTR tokens after boundary-preserving normalization. -/
def extractUtrTokens (U : Unicode) (text : String) : List String :=
  utrTokensFrom false (normalizeNarration U text).toList

end Untangle
