import CtrlMesh.Labels.Selector

/-!
# Selectors as text

`selector.go` of the `labels` package: the validation of requirements, the text of a selector, and
the lexer and parser that read it back. A Go string is the list of its bytes, written as characters
below 256; the parser's errors carry no more than that there is one.
-/

namespace CtrlMesh.Labels

/-- An ASCII letter or digit. -/
def isLetterOrDigit (c : Char) : Bool :=
  ('a' ≤ c && c ≤ 'z') || ('A' ≤ c && c ≤ 'Z') || ('0' ≤ c && c ≤ '9')

/-- A lower-case ASCII letter or a digit. -/
def isLowerOrDigit (c : Char) : Bool := ('a' ≤ c && c ≤ 'z') || ('0' ≤ c && c ≤ '9')

/-- A non-empty text that begins and ends with a character of `outer`, all others being of `outer`
or `inner`. -/
def isFramed (outer inner : Char → Bool) (text : List Char) : Bool :=
  text.head?.any outer && text.getLast?.any outer && text.all fun c => outer c || inner c

/-- `qualifiedNameRegexp`. -/
def matchesQualifiedName (text : List Char) : Bool :=
  isFramed isLetterOrDigit (fun c => c == '-' || c == '_' || c == '.') text

/-- `IsDNS1123Subdomain`. -/
def isDNS1123Subdomain (text : List Char) : Bool :=
  text.length ≤ 253 && (text.splitOn '.').all (isFramed isLowerOrDigit (· == '-'))

/-- `IsQualifiedName`. -/
def isQualifiedName (value : String) : Bool :=
  match value.toList.splitOn '/' with
  | [name] => name.length ≤ 63 && matchesQualifiedName name
  | [namespacePart, name] =>
    isDNS1123Subdomain namespacePart && name.length ≤ 63 && matchesQualifiedName name
  | _ => false

/-- `IsValidLabelValue`. -/
def isValidLabelValue (value : String) : Bool :=
  value.toList.length ≤ 63 && (value.toList.isEmpty || matchesQualifiedName value.toList)

/-- The number of values an operator takes. -/
def Operator.admits (op : Operator) (values : List String) : Bool :=
  match op with
  | .in_ | .notIn => !values.isEmpty
  | .equals | .doubleEquals | .notEquals => values.length == 1
  | .exists_ | .doesNotExist => values.isEmpty
  | .greaterThan | .lessThan =>
    values.length == 1 && values.all fun value => (parseInt64 value).isSome

namespace Requirement

/-- What `NewRequirement` asks of its arguments. -/
def isValid (r : Requirement) : Bool :=
  isQualifiedName r.key && r.operator.admits r.strValues && r.strValues.all isValidLabelValue

/-- `NewRequirement`. -/
def checked (r : Requirement) : Option Requirement := if r.isValid then some r else none

end Requirement

/-- What the selector of `LabelSelectorAsSelector` says of a label map, if the API selector is
valid. A nil one accepts nothing. -/
def labelSelectorMatches (ps : Option LabelSelector) (labels : LabelSet) : Option Bool :=
  match ps with
  | none => some false
  | some ps => do
    let reqs ← ps.asRequirements
    if reqs.all (·.isValid) then some (reqs.all (·.matchesLabels labels)) else none

/-- `LabelSelectorAsSelector`; an error is `none`. -/
def labelSelectorAsSelector (sorter : Sorter) : Option LabelSelector → Option Selector
  | none => some .nothing
  | some ps =>
    if ps.matchLabels.entries.length + ps.matchExpressions.length = 0 then some .everything
    else do
      let reqs ← ps.asRequirements
      if reqs.all (·.isValid) then some (Selector.everything.add sorter reqs) else none

/-- `sort.Strings`. -/
def sortStrings (values : List String) : List String := values.insertionSort (· ≤ ·)

/-- The characters between key and values. -/
def Operator.text : Operator → List Char
  | .equals => ['=']
  | .doubleEquals => ['=', '=']
  | .notEquals => ['!', '=']
  | .in_ => [' ', 'i', 'n', ' ']
  | .notIn => [' ', 'n', 'o', 't', 'i', 'n', ' ']
  | .greaterThan => ['>']
  | .lessThan => ['<']
  | .exists_ | .doesNotExist => []

/-- `strings.Join(values, ",")`. -/
def joinComma (parts : List (List Char)) : List Char := [','].intercalate parts

/-- The values of a requirement, more than one of them sorted. -/
def valueText : List String → List Char
  | [value] => value.toList
  | values => joinComma ((sortStrings values).map String.toList)

/-- `Requirement.String`. -/
def Requirement.text (r : Requirement) : List Char :=
  match r.operator with
  | .exists_ => r.key.toList
  | .doesNotExist => '!' :: r.key.toList
  | .in_ | .notIn => r.key.toList ++ r.operator.text ++ '(' :: valueText r.strValues ++ [')']
  | _ => r.key.toList ++ r.operator.text ++ valueText r.strValues

/-- `Selector.String`. -/
def Selector.text : Selector → List Char
  | .nothing => []
  | .requirements reqs => joinComma (reqs.map Requirement.text)

/-- `Token`. -/
inductive Token where
  | error
  | endOfString
  | closedPar
  | comma
  | doesNotExist
  | doubleEquals
  | equals
  | greaterThan
  | identifier
  | in_
  | lessThan
  | notEquals
  | notIn
  | openPar
  deriving DecidableEq

/-- `string2token`. -/
def string2token : List Char → Option Token
  | [')'] => some .closedPar
  | [','] => some .comma
  | ['!'] => some .doesNotExist
  | ['=', '='] => some .doubleEquals
  | ['='] => some .equals
  | ['>'] => some .greaterThan
  | ['i', 'n'] => some .in_
  | ['<'] => some .lessThan
  | ['!', '='] => some .notEquals
  | ['n', 'o', 't', 'i', 'n'] => some .notIn
  | ['('] => some .openPar
  | _ => none

/-- `ScannedItem`. -/
structure ScannedItem where
  tok : Token
  literal : List Char
  deriving DecidableEq

/-- `isWhitespace`. -/
def isWhitespace (ch : Char) : Bool := ch == ' ' || ch == '\t' || ch == '\r' || ch == '\n'

/-- `isSpecialSymbol`. -/
def isSpecialSymbol (ch : Char) : Bool :=
  ch == '=' || ch == '!' || ch == '(' || ch == ')' || ch == ',' || ch == '>' || ch == '<'

/-- The buffer `scanIDOrKeyword` collects, and the text after it. -/
def scanWord : List Char → List Char × List Char
  | [] => ([], [])
  | ch :: text =>
    if ch.toNat = 0 then ([], text)
    else if isSpecialSymbol ch || isWhitespace ch then ([], ch :: text)
    else
      let (buffer, rest) := scanWord text
      (ch :: buffer, rest)

/-- `scanIDOrKeyword`. -/
def scanIDOrKeyword (text : List Char) : ScannedItem × List Char :=
  let (buffer, rest) := scanWord text
  (⟨(string2token buffer).getD .identifier, buffer⟩, rest)

/-- The loop of `scanSpecialSymbol`. -/
def scanSymbols (buffer : List Char) (last : ScannedItem) : List Char → ScannedItem × List Char
  | [] => (last, [])
  | ch :: text =>
    if ch.toNat = 0 then (last, text)
    else if isSpecialSymbol ch then
      match string2token (buffer ++ [ch]) with
      | some tok => scanSymbols (buffer ++ [ch]) ⟨tok, buffer ++ [ch]⟩ text
      | none =>
        if last.tok ≠ .error then (last, ch :: text) else scanSymbols (buffer ++ [ch]) last text
    else (last, ch :: text)

/-- `scanSpecialSymbol`. -/
def scanSpecialSymbol (text : List Char) : ScannedItem × List Char :=
  scanSymbols [] ⟨.error, []⟩ text

/-- `Parser.scan`, with `Lex` written out. Each round reads a character at least, so a fuel above
the length of the text is enough. -/
def scan : Nat → List Char → List ScannedItem
  | 0, _ => []
  | _ + 1, [] => [⟨.endOfString, []⟩]
  | fuel + 1, ch :: text =>
    if isWhitespace ch then scan fuel text
    else if ch.toNat = 0 then [⟨.endOfString, []⟩]
    else
      let (item, rest) :=
        if isSpecialSymbol ch then scanSpecialSymbol (ch :: text) else scanIDOrKeyword (ch :: text)
      item :: scan fuel rest

/-- A token as the context `Values` sees it: the keywords are identifiers there. -/
def Token.inValues : Token → Token
  | .in_ | .notIn => .identifier
  | tok => tok

/-- `lookahead(Values)`. -/
def lookahead : List ScannedItem → Token
  | [] => .error
  | item :: _ => item.tok.inValues

/-- The end of `parseKeyAndInferOperator`, from the token that should be the key. -/
def inferOperator (negated : Bool) : List ScannedItem →
    Option (String × Option Operator × List ScannedItem)
  | [] => none
  | item :: rest =>
    let literal := String.ofList item.literal
    if item.tok.inValues ≠ .identifier then none
    else if !isQualifiedName literal then none
    else
      let operator := if negated then some .doesNotExist
        else if lookahead rest = .endOfString ∨ lookahead rest = .comma then some .exists_
        else none
      some (literal, operator, rest)

/-- `parseKeyAndInferOperator`. -/
def parseKeyAndInferOperator : List ScannedItem →
    Option (String × Option Operator × List ScannedItem)
  | [] => none
  | item :: rest =>
    if item.tok = .doesNotExist then inferOperator true rest else inferOperator false (item :: rest)

/-- The switch of `parseOperator`. -/
def Token.binaryOperator : Token → Option Operator
  | .in_ => some .in_
  | .equals => some .equals
  | .doubleEquals => some .doubleEquals
  | .greaterThan => some .greaterThan
  | .lessThan => some .lessThan
  | .notIn => some .notIn
  | .notEquals => some .notEquals
  | _ => none

/-- `parseIdentifiersList`: the set of values so far, and the items from the closing parenthesis
on. -/
def parseIdentifiersList (values : List String) : List ScannedItem →
    Option (List String × List ScannedItem)
  | [] => none
  | item :: rest =>
    match item.tok.inValues with
    | .identifier =>
      let values := values.insert (String.ofList item.literal)
      match lookahead rest with
      | .comma => parseIdentifiersList values rest
      | .closedPar => some (values, rest)
      | _ => none
    | .comma =>
      let values := if values = [] then [""] else values
      match rest with
      | ⟨.closedPar, _⟩ :: _ => some (values.insert "", rest)
      | ⟨.comma, _⟩ :: rest => parseIdentifiersList (values.insert "") rest
      | rest => parseIdentifiersList values rest
    | _ => none

/-- `parseValues`. -/
def parseValues : List ScannedItem → Option (List String × List ScannedItem)
  | ⟨.openPar, _⟩ :: rest =>
    match lookahead rest with
    | .identifier | .comma => do
      let (values, rest) ← parseIdentifiersList [] rest
      match rest with
      | ⟨.closedPar, _⟩ :: rest => some (values, rest)
      | _ => none
    | .closedPar => some ([""], rest.tail)
    | _ => none
  | _ => none

/-- `parseExactValue`. -/
def parseExactValue (items : List ScannedItem) : Option (List String × List ScannedItem) :=
  match items with
  | [] => none
  | item :: rest =>
    match item.tok.inValues with
    | .endOfString | .comma => some ([""], items)
    | .identifier => some ([String.ofList item.literal], rest)
    | _ => none

/-- The values after a binary operator. -/
def parseOperands : Operator → List ScannedItem → Option (List String × List ScannedItem)
  | .in_ | .notIn => parseValues
  | _ => parseExactValue

/-- The part of `parseRequirement` after the key of a binary requirement. -/
def parseOperatorAndValues (key : String) : List ScannedItem →
    Option (Requirement × List ScannedItem)
  | [] => none
  | item :: rest => do
    let operator ← item.tok.binaryOperator
    let (values, rest) ← parseOperands operator rest
    let r ← Requirement.checked ⟨key, operator, sortStrings values⟩
    some (r, rest)

/-- `parseRequirement`. -/
def parseRequirement (items : List ScannedItem) : Option (Requirement × List ScannedItem) := do
  let (key, operator, rest) ← parseKeyAndInferOperator items
  match operator with
  | some operator => (Requirement.checked ⟨key, operator, []⟩).map (·, rest)
  | none => parseOperatorAndValues key rest

/-- `Parser.parse` after the scan. Each round uses an item at least. -/
def parseItems : Nat → List ScannedItem → Option (List Requirement)
  | 0, _ => none
  | fuel + 1, items =>
    match lookahead items with
    | .identifier | .doesNotExist => do
      let (r, rest) ← parseRequirement items
      match rest with
      | ⟨.endOfString, _⟩ :: _ => some [r]
      | ⟨.comma, _⟩ :: rest =>
        match lookahead rest with
        | .identifier | .doesNotExist => (parseItems fuel rest).map (r :: ·)
        | _ => none
      | _ => none
    | .endOfString => some []
    | _ => none

/-- `labels.ParseToRequirements`. -/
def parseToRequirements (sorter : Sorter) (text : List Char) : Option (List Requirement) :=
  let items := scan (text.length + 1) text
  (parseItems items.length items).map sorter.sort

end CtrlMesh.Labels
