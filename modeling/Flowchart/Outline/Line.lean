import Flowchart.Outline.Numbering
import Flowchart.Outline.Label
import Flowchart.Vocabulary

/-!
# Lines of an outline

Each line of an outline says one thing: it adds a node, answers a decision, opens or closes a container, or says
nothing. The rules look at the line without the blanks around it; the first rule that applies decides, and a
line to which none applies says nothing. Apart from the last one, no two of the rules apply to the same line.

The blanks in front of a line give its level, two for each.
-/

namespace Flowchart.Outline

open Text

/-- The two answers to a decision. -/
inductive Answer where
  | yes
  | no
deriving DecidableEq, Repr

/-- What a line says. -/
inductive Content where
  | nothing
  | node (kind : NodeKind) (label : String)
  | answer (answer : Answer) (label : String)
  | opening (name : String)
  | closing
deriving DecidableEq, Repr

/-- The label of a node whose line gives none. -/
def defaultLabel : NodeKind → String
  | .start => "Início"
  | .finish => "Fim"
  | .decision => "Decisão"
  | .process => "Processo"

/-- The marker of each kind of node, in small letters. -/
def marker : NodeKind → String
  | .start => "[início]"
  | .finish => "[fim]"
  | .decision => "[decisão]"
  | .process => "[processo]"

/-- The words that begin a line with an answer, in small letters. -/
def Answer.words : Answer → List String
  | yes => ["sim", "s"]
  | no => ["não", "nao", "n"]

def Answer.label : Answer → String
  | yes => "Sim"
  | no => "Não"

def Answer.variant : Answer → Variant
  | yes => .positive
  | no => .negative

/-- The words that begin a heading, in small letters. -/
def headings : List String :=
  ["cenário macro", "fluxograma", "nós em sequência", "versão"]

def defaultContainerName : String := "Container"

/-- A text without the blanks around it, or a stand-in if nothing is left. -/
def labelOr (text : List Char) (standIn : String) : String :=
  if (trim text).isEmpty then standIn else String.ofList (trim text)

/-! ### Rules -/

def beginsWith (word : String) (line : List Char) : Bool :=
  (dropCaseless? word.toList line).isSome

/-- Numbers and bullets of an outline, which never carry a node. -/
def isOutlineMark (line : List Char) : Bool :=
  (dropDotted? 2 line).isSome || (line.head?.map isBullet).getD false || (dropClosed? line).isSome

def isSeparator (line : List Char) : Bool :=
  line.take 3 = ['=', '=', '=']

def isHeading (line : List Char) : Bool :=
  headings.any fun word => beginsWith word line

/-- Lines that say nothing, whatever else they look like. -/
def isNoise (line : List Char) : Bool :=
  decide (line.length < 3) || isOutlineMark line || isSeparator line || isHeading line

def noiseRule (line : List Char) : Option Content :=
  if isNoise line then some .nothing else none

def markerRule (kind : NodeKind) (line : List Char) : Option Content :=
  (dropCaseless? (marker kind).toList line).map fun rest =>
    .node kind (labelOr (dropBullet (trim rest)) (defaultLabel kind))

def answerRule (a : Answer) (line : List Char) : Option Content :=
  (a.words.findSome? fun word => (dropCaseless? word.toList line).bind fun rest =>
    dropArrow? (trimStart rest)).map fun rest => .answer a (labelOr rest a.label)

def closingRule (line : List Char) : Option Content :=
  if beginsWith "[container-end]" line then some .closing else none

/-- A container is opened by a single line of text. -/
def openingRule (line : List Char) : Option Content :=
  match dropCaseless? "[container]".toList line with
  | some rest =>
    if (trimStart rest).contains '\n' then none
    else some (.opening (labelOr rest defaultContainerName))
  | none => none

/-- Whether a character is a capital of the basic Latin letters or one of those from À to Ú. -/
def isCapital (c : Char) : Bool :=
  (decide ('A' ≤ c) && decide (c ≤ 'Z')) || (decide ('À' ≤ c) && decide (c ≤ 'Ú'))

def capitalRule (line : List Char) : Option Content :=
  if (line.head?.map isCapital).getD false then some (.node .process (String.ofList line))
  else none

/-- The rules other than the last one, in the order in which they are tried. -/
def rules : List (List Char → Option Content) :=
  [noiseRule, markerRule .start, markerRule .finish, markerRule .decision, markerRule .process,
   answerRule .yes, answerRule .no, closingRule, openingRule]

/-- What a line without blanks around it says, with its whole label. -/
def contentOf (line : List Char) : Content :=
  ((rules.findSome? fun rule => rule line).or (capitalRule line)).getD .nothing

/-- The content with its label capped; the name of a container stays whole. -/
def Content.capped (maxLength : Int) : Content → Content
  | node kind label => node kind (capLabel maxLength label)
  | answer a label => answer a (capLabel maxLength label)
  | other => other

structure Line where
  content : Content
  level : Nat
deriving DecidableEq, Repr

/-- The level of a line indented by a number of blanks; an answer lies one level deeper. -/
def levelOf (indent : Nat) : Content → Nat
  | .nothing => 0
  | .answer _ _ => indent / 2 + 1
  | _ => indent / 2

def classify (maxLength : Int) (raw : List Char) : Line :=
  let content := contentOf (trim raw)
  ⟨content.capped maxLength, levelOf (raw.takeWhile (· = ' ')).length content⟩

namespace Line

def kindName (line : Line) : String :=
  match line.content with
  | .nothing => "ignore"
  | .node kind _ => Vocabulary.name kind
  | .answer _ _ => Vocabulary.name NodeKind.process
  | .opening _ => "container-open"
  | .closing => "container-close"

def text (line : Line) : String :=
  match line.content with
  | .node _ label => label
  | .answer _ label => label
  | .opening name => name
  | _ => ""

def answer? (line : Line) : Option Answer :=
  match line.content with
  | .answer a _ => some a
  | _ => none

def isBranch (line : Line) : Bool :=
  line.answer?.isSome

end Line

/-- What the lines of a text say, in order; lines that say nothing are left out. -/
def contents (maxLength : Int) (text : List Char) : List Content :=
  (((splitLines text).filter fun line => !(trim line).isEmpty).map fun line =>
    (classify maxLength line).content).filter (· ≠ .nothing)

end Flowchart.Outline
