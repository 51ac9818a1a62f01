import OpeningHand.Document.Shown

/-!
# Faults

Everything that can stop an operation, as a cause. `Fault.kind` sorts the causes by what a caller
can do about them, and `Fault.message` is the one place where they are put into words.
-/

namespace OpeningHand

/-- Why an operation stopped. -/
inductive Fault where
  /-- A condition text holds a character that no token has. -/
  | illegalCharacter (c : Char) (position : Nat)
  /-- A condition text without tokens. -/
  | emptyCondition
  /-- A condition text stops where a term should begin. -/
  | endOfCondition
  /-- A count without a card name after it. -/
  | missingName (amount : String) (position : Int)
  /-- Parentheses around nothing. -/
  | emptyParentheses (position : Int)
  /-- A parenthesis that is never closed. -/
  | unclosedParenthesis (position : Int)
  /-- A closing parenthesis that closes nothing. -/
  | strayParenthesis (position : Int)
  /-- A token that cannot begin a term. -/
  | misplacedToken (kind value : String) (position : Int)
  /-- A token after the end of a condition. -/
  | trailingToken (value : String) (position : Int)
  /-- A condition document that is no mapping. -/
  | conditionNotMapping (kindName : String)
  /-- A condition document whose kind is neither a leaf nor a joint. -/
  | unknownConditionKind (kind : Value)
  /-- A condition document with a missing or impossible field. -/
  | malformedCondition (kind : String) (cause : Fault)
  /-- Something that is no condition at all, or a joint of an unknown word. -/
  | unknownNode (shown : String)
  /-- A leaf that looks in a place nobody knows. -/
  | unknownPlace (word : String)
  /-- A leaf that compares in a way nobody knows. -/
  | unknownComparison (word : String)
  /-- A value that is none of the words of a fixed list, named by the list. -/
  | notAChoice (value : Value) (choices : String)
  /-- A text or bytes that write no whole number in a base. -/
  | notWholeIn (base : Nat) (written : Value)
  /-- A text that writes no number with a point. -/
  | notDecimal (text : String)
  /-- The value that is no number has no whole part. -/
  | noWholePart
  /-- A calendar date that does not exist. -/
  | noSuchDate (reason : String)
  /-- Card details that are no mapping. -/
  | cardDetails (card : String)
  /-- A number of copies that is no natural number, as shown. -/
  | copies (card : String) (shown : String)
  /-- A deck that is no mapping. -/
  | deckNotMapping
  /-- The details of a free card, in a table cell. -/
  | freeDetails (card : String) (cause : Fault)
  /-- A text that is no JSON document. -/
  | badJson
  /-- A deck file whose text is no JSON document. -/
  | jsonFile
  /-- A deck file in JSON that is no mapping. -/
  | jsonTop
  /-- An escape that stands for no character. -/
  | noSuchCharacter
  /-- A text that is no YAML document. -/
  | badYaml
  /-- A deck file in YAML that could not be used. -/
  | yamlFile (cause : Fault)
  /-- A deck file in YAML that is no mapping. -/
  | yamlTop
  /-- A table without a column of names or conditions. -/
  | noColumns
  /-- A table without any text. -/
  | emptyTable
  /-- A table whose rows do not fit together. -/
  | brokenTable (reason : String)
  /-- A name that no data format has. -/
  | unknownFormat (name : Value)
  /-- A key that a mapping lacks. -/
  | missingKey (key : Value)
  /-- A value of a kind that the operation cannot use. -/
  | wrongKind
  /-- A value that has no such field. -/
  | noField
  /-- An infinity where a whole number is needed. -/
  | tooLarge
  /-- The last character of an empty text. -/
  | emptyText
  /-- An operation that a data format does not provide. -/
  | notProvided
  /-- A draw from an empty deck. -/
  | emptyDeck
  /-- An aftermath that asks for more than the deck holds. -/
  | cannotBanish (amount : Value) (deckSize : Nat)
  /-- An aftermath that asks for more cards than the hand holds. -/
  | needCards (amount : Int) (handSize : Nat)
  /-- An aftermath that asks for a card that is not in the hand. -/
  | noneInHand (name : String)
  /-- A file that does not exist. -/
  | noFile (path : String)
  /-- A folder where a file is needed. -/
  | isFolder (path : String)
  /-- A path that goes on behind a file. -/
  | behindFile (path : String)
  /-- A path with a part that no file system takes. -/
  | longPath (path : String)
  /-- A path that holds the character zero. -/
  | brokenPath
deriving DecidableEq, Repr

/-- The kinds of faults, by what a caller can do about them. -/
inductive FaultKind where
  /-- A condition text breaks the grammar. -/
  | grammar
  /-- A condition tree is not one. -/
  | malformed
  /-- A value is not allowed. -/
  | badValue
  /-- A key is missing. -/
  | missingKey
  /-- A value has the wrong kind. -/
  | wrongKind
  /-- A value lacks a field. -/
  | noField
  /-- A number is too large. -/
  | tooLarge
  /-- A text is too short. -/
  | tooShort
  /-- A format lacks an operation. -/
  | notProvided
  /-- A text is no JSON document. -/
  | badJson
  /-- A table is empty. -/
  | emptyTable
  /-- A table is broken. -/
  | brokenTable
  /-- A deck ran out of cards. -/
  | emptyDeck
  /-- An aftermath could not be paid. -/
  | aftermath
  /-- A file does not exist. -/
  | noFile
  /-- A folder was opened as a file. -/
  | isFolder
  /-- A file was entered as a folder. -/
  | behindFile
  /-- A path is too long. -/
  | longPath
deriving DecidableEq, Repr

/-- Whether a fault of this kind says that some value was not acceptable. Readers of files and the
command line report these and let all others through. -/
def FaultKind.isValue : FaultKind → Bool
  | .grammar | .malformed | .badValue | .badJson | .emptyTable | .brokenTable => true
  | _ => false

/-- Whether a fault of this kind comes from the file system. -/
def FaultKind.isFile : FaultKind → Bool
  | .noFile | .isFolder | .behindFile | .longPath => true
  | _ => false

namespace Fault

/-- The kind of a fault. -/
def kind : Fault → FaultKind
  | .illegalCharacter .. | .emptyCondition | .endOfCondition | .missingName .. | .emptyParentheses _
  | .unclosedParenthesis _ | .strayParenthesis _ | .misplacedToken .. | .trailingToken .. => .grammar
  | .conditionNotMapping _ | .unknownConditionKind _ | .malformedCondition .. | .unknownNode _
  | .unknownPlace _ | .unknownComparison _ => .malformed
  | .notAChoice .. | .notWholeIn .. | .notDecimal _ | .noWholePart | .noSuchDate _ | .cardDetails _
  | .copies .. | .noSuchCharacter
  | .deckNotMapping | .freeDetails .. | .jsonFile | .jsonTop | .badYaml | .yamlFile _ | .yamlTop
  | .noColumns | .unknownFormat _ | .brokenPath => .badValue
  | .badJson => .badJson
  | .emptyTable => .emptyTable
  | .brokenTable _ => .brokenTable
  | .missingKey _ => .missingKey
  | .wrongKind => .wrongKind
  | .noField => .noField
  | .tooLarge => .tooLarge
  | .emptyText => .tooShort
  | .notProvided => .notProvided
  | .emptyDeck => .emptyDeck
  | .cannotBanish .. | .needCards .. | .noneInHand _ => .aftermath
  | .noFile _ => .noFile
  | .isFolder _ => .isFolder
  | .behindFile _ => .behindFile
  | .longPath _ => .longPath

/-- Whether the fault says that some value was not acceptable. -/
def isValue (f : Fault) : Bool := f.kind.isValue

/-- The words for a fault. -/
def message : Fault → String
  | .illegalCharacter c p =>
    "Illegal character " ++ Text.quoted (String.ofList [c]) ++ " at position " ++ Number.text p
  | .emptyCondition => "Empty condition"
  | .endOfCondition => "Unexpected end of condition"
  | .missingName a p =>
    "Expected card name after " ++ Text.quoted a ++ " at position " ++ Number.text p
  | .emptyParentheses p => "Empty parentheses at position " ++ Number.text p
  | .unclosedParenthesis p => "Expected closing parenthesis for position " ++ Number.text p
  | .strayParenthesis p => "Unexpected closing parenthesis at position " ++ Number.text p
  | .misplacedToken k v p =>
    "Unexpected " ++ k ++ " " ++ Text.quoted v ++ " at position " ++ Number.text p
  | .trailingToken v p => "Unexpected token " ++ Text.quoted v ++ " at position " ++ Number.text p
  | .conditionNotMapping k => "Condition must be a mapping, got " ++ k
  | .unknownConditionKind v => "Unknown condition kind: " ++ v.exact
  | .malformedCondition k cause => "Malformed " ++ k ++ " condition: " ++ cause.message
  | .unknownNode s => "Unknown condition node: " ++ s
  | .unknownPlace w => "Unknown location: " ++ w
  | .unknownComparison w => "Unknown operator: " ++ w
  | .notAChoice v choices => v.exact ++ " is not a valid " ++ choices
  | .notWholeIn base v =>
    "invalid literal for int() with base " ++ Number.text base ++ ": " ++
      String.ofList (v.exact.toList.take 200)
  | .notDecimal s => "could not convert string to float: " ++ Text.quoted s
  | .noWholePart => "cannot convert float NaN to integer"
  | .noSuchDate reason => reason
  | .noSuchCharacter => "chr() arg not in range(0x110000)"
  | .cardDetails c => "Invalid card details for " ++ c
  | .copies c s => "Invalid card structure for " ++ c ++ ": qty=" ++ s
  | .deckNotMapping => "deck must be a mapping of card name to details"
  | .freeDetails c .badJson => "Invalid free details for " ++ c
  | .freeDetails c cause => "Invalid free details for " ++ c ++ ": " ++ cause.message
  | .jsonFile => "Failed to parse JSON"
  | .jsonTop => "Failed to parse JSON: top level must be an object"
  | .yamlFile .badYaml => "Failed to parse YAML"
  | .yamlFile cause => "Failed to parse YAML: " ++ cause.message
  | .yamlTop => "top level must be a mapping"
  | .noColumns => "CSV needs a 'name' or 'condition' column"
  | .emptyTable => "No columns to parse from file"
  | .unknownFormat v => "Unknown data format: " ++ v.exact ++ " (expected one of csv, json, yaml, yml)"
  | .missingKey k => k.exact
  | .emptyDeck => "Cannot draw from an empty deck"
  | .cannotBanish a n =>
    "cannot banish " ++ a.shown ++ " from a deck of " ++ Number.text n
  | .needCards a n => "need " ++ Number.text a ++ " cards in hand, have " ++ Number.text n
  | .noneInHand s => "no " ++ s ++ " in hand"
  | .noFile p => "[Errno 2] No such file or directory: " ++ Text.quoted p
  | .isFolder p => "[Errno 21] Is a directory: " ++ Text.quoted p
  | .behindFile p => "[Errno 20] Not a directory: " ++ Text.quoted p
  | .longPath p => "[Errno 36] File name too long: " ++ Text.quoted p
  | .brokenPath => "embedded null byte"
  | .brokenTable reason => "Error tokenizing data. C error: " ++ reason
  | .badJson | .badYaml | .wrongKind | .noField | .tooLarge | .emptyText
  | .notProvided => ""

end Fault

/-- Two steps succeed together exactly if the first one does and the second one does on its result. -/
theorem bind_eq_ok {α β : Type} {x : Except Fault α} {f : α → Except Fault β} {b : β} :
    x >>= f = .ok b ↔ ∃ a, x = .ok a ∧ f a = .ok b := by
  cases x with
  | error e => simp [bind, Except.bind]
  | ok a => simp [bind, Except.bind]

/-- Two steps stop with a fault exactly if the first one does or the second one does on its result. -/
theorem bind_eq_error {α β : Type} {x : Except Fault α} {f : α → Except Fault β} {e : Fault} :
    x >>= f = .error e ↔ x = .error e ∨ ∃ a, x = .ok a ∧ f a = .error e := by
  cases x with
  | error e => simp [bind, Except.bind]
  | ok a => simp [bind, Except.bind]

theorem map_eq_ok {α β : Type} {x : Except Fault α} {f : α → β} {b : β} :
    x.map f = .ok b ↔ ∃ a, x = .ok a ∧ f a = b := by
  cases x with
  | error e => simp [Except.map]
  | ok a => simp [Except.map]

theorem map_eq_error {α β : Type} {x : Except Fault α} {f : α → β} {e : Fault} :
    x.map f = .error e ↔ x = .error e := by
  cases x with
  | error e' => simp [Except.map]
  | ok a => simp [Except.map]

theorem mapError_eq_ok {α : Type} {x : Except Fault α} {f : Fault → Fault} {a : α} :
    x.mapError f = .ok a ↔ x = .ok a := by
  cases x with
  | error e => exact ⟨nofun, nofun⟩
  | ok b => exact Iff.rfl

theorem mapError_eq_error {α : Type} {x : Except Fault α} {f : Fault → Fault} {e : Fault} :
    x.mapError f = .error e ↔ ∃ e', x = .error e' ∧ f e' = e := by
  cases x with
  | error e' =>
      constructor
      · exact fun h => ⟨e', rfl, Except.error.inj h⟩
      · rintro ⟨_, h, rfl⟩
        exact congrArg (Except.error ∘ f) (Except.error.inj h)
  | ok a => exact ⟨nofun, nofun⟩

end OpeningHand
