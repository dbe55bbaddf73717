import CandyDrop.Command.Basic
import CandyDrop.Text.Integer
import CandyDrop.Text.Likeness

/-!
# The command line

The words after the name of the program: options of the program, the name of a command, and the
options of that command. An option with two dashes may hold its value after an equals sign, one
with a single dash directly; otherwise the value is the next word, unless that looks like an option
itself. After `--` no word is an option.

* `LineOption`, `Verb`: what can be written;
* `Reading`: what has been read of one level, the program's or a command's, and what is checked
  once its words are read (`Reading.check`);
* `Invocation.ofWords`: the whole line.
-/

namespace CandyDrop

/-- What is wrong with a command line, or what it asks for instead of a command. -/
inductive LineFault where
  /-- Help is asked for. -/
  | help
  /-- The version is asked for. -/
  | version
  /-- There is no command. -/
  | missingCommand
  | unknownArgument
  /-- Help is asked for about a command that does not exist. -/
  | unknownCommand
  /-- A word that looks like a misspelt command. -/
  | misspeltCommand
  | missingArgument
  | missingValue
  /-- A value for an option that takes none. -/
  | unwantedValue
  | invalidValue
  /-- An option more than once. -/
  | repeated
  deriving DecidableEq

def LineFault.message : LineFault → String
  | help => "Usage: candy-cli [--log-level <level>] <command> [options]"
  | version => "candy-cli 0.2.1"
  | missingCommand => "A command is required"
  | unknownArgument => "An argument was not expected"
  | unknownCommand => "There is no such command"
  | misspeltCommand => "There is no such command, but one with a similar name"
  | missingArgument => "A required argument is missing"
  | missingValue => "An option needs a value"
  | unwantedValue => "An option takes no value"
  | invalidValue => "A value is not a number in range"
  | repeated => "An option was given more than once"

/-- A command by its name. -/
inductive Verb where
  | deploy
  | upload
  | mintOne
  | mintMany
  deriving DecidableEq

namespace Verb

def name : Verb → String
  | deploy => "deploy"
  | upload => "upload"
  | mintOne => "mint_one_token"
  | mintMany => "mint_multiple_tokens"

def all : List Verb := [deploy, upload, mintOne, mintMany]

/-- The command of a name. -/
def ofName? (word : String) : Option Verb := all.find? fun v => v.name == word

/-- The command that only explains the others. -/
def helpName : String := "help"

/-- Every word that stands for a command. -/
def names : List String := all.map name ++ [helpName]

end Verb

/-- What starts with a dash on a command line. -/
inductive LineOption where
  | help
  | version
  | logLevel
  | env
  | keypair
  | cacheName
  | rpcUrl
  | configPath
  | rateLimit
  | collectionMint
  | noSetCollectionMint
  | number
  deriving DecidableEq

namespace LineOption

/-- The name after two dashes. -/
def name : LineOption → String
  | help => "help"
  | version => "version"
  | logLevel => "log-level"
  | env => "env"
  | keypair => "keypair"
  | cacheName => "cache-name"
  | rpcUrl => "rpc-url"
  | configPath => "config-path"
  | rateLimit => "rate-limit"
  | collectionMint => "collection-mint"
  | noSetCollectionMint => "no-set-collection-mint"
  | number => "number"

/-- The letter after one dash. -/
def letter? : LineOption → Option Char
  | help => some 'h'
  | version => some 'V'
  | logLevel => some 'l'
  | env => some 'e'
  | keypair => some 'k'
  | cacheName => some 'c'
  | rpcUrl => some 'r'
  | collectionMint => some 'm'
  | number => some 'n'
  | configPath => none
  | rateLimit => none
  | noSetCollectionMint => none

/-- Whether a value belongs to the option. -/
def takesValue : LineOption → Bool
  | help => false
  | version => false
  | noSetCollectionMint => false
  | _ => true

/-- Whether a text can be the value of the option. -/
def accepts : LineOption → String → Bool
  | rateLimit, value => (Text.uint64? value).isSome
  | number, value => (Text.uint64? value).isSome
  | _, _ => true

/-- The options of every command. -/
def common : List LineOption := [env, keypair, cacheName, rpcUrl, logLevel, help]

/-- The options of the commands that make a machine. -/
def collection : List LineOption := [configPath, rateLimit, collectionMint, noSetCollectionMint]

/-- The options of a command, or of the program itself. -/
def known : Option Verb → List LineOption
  | none => [logLevel, help, version]
  | some .deploy => common ++ collection
  | some .upload => common ++ collection
  | some .mintOne => common
  | some .mintMany => common ++ [number]

/-- The options that a command needs. -/
def required : Verb → List LineOption
  | .deploy => [configPath]
  | .upload => [configPath]
  | .mintOne => []
  | .mintMany => [number]

end LineOption

/-- The mentions of one option, and the value of each that has one so far. -/
structure Mentions where
  option : LineOption
  values : List (Option String)
  deriving DecidableEq

namespace Mentions

/-- Whether there is no value where there has to be one. -/
def lacksValue (m : Mentions) : Bool := m.option.takesValue && m.values.all Option.isNone

/-- What is wrong with the mentions of an option. -/
def check (m : Mentions) : Except LineFault Unit :=
  if m.lacksValue then .error .missingValue
  else if m.values.any fun v => v.any fun text => !m.option.accepts text then
    .error .invalidValue
  else if 1 < m.values.length then .error .repeated
  else .ok ()

end Mentions

/-- What has been read of the words of one level. -/
structure Reading where
  /-- The options in the order in which they were first mentioned. -/
  mentions : List Mentions
  /-- The option whose value may be the next word. -/
  open? : Option LineOption
  /-- Whether words are no longer taken for options. -/
  isPlain : Bool
  /-- The first word that is no option. -/
  directory : Option String

namespace Reading

/-- Nothing read. -/
def start : Reading := ⟨[], none, false, none⟩

/-- The mentions with one more of `option`. -/
def addMention (option : LineOption) (value : Option String) : List Mentions → List Mentions
  | [] => [⟨option, [value]⟩]
  | m :: ms =>
    if m.option = option then ⟨option, m.values ++ [value]⟩ :: ms
    else m :: addMention option value ms

/-- One more mention of an option, with its value if that is in the same word. -/
def mention (r : Reading) (option : LineOption) (value : Option String) : Reading :=
  { r with
    mentions := addMention option value r.mentions
    open? := if option.takesValue && value.isNone then some option else none }

/-- A list with its last element changed. -/
def changeLast {α : Type} (f : α → α) : List α → List α
  | [] => []
  | [x] => [f x]
  | x :: xs => x :: changeLast f xs

/-- The value of the option that is open. -/
def supply (r : Reading) (option : LineOption) (value : String) : Reading :=
  { r with
    mentions := r.mentions.map fun m =>
      if m.option = option then ⟨option, changeLast (fun _ => some value) m.values⟩ else m
    open? := none }

/-- Takes the mention of an option without a value, or what it asks for instead. -/
def takeFlag (r : Reading) (option : LineOption) : Except LineFault Reading :=
  match option with
  | .help => .error .help
  | .version => .error .version
  | option => .ok (r.mention option none)

/-- Reads what follows two dashes. -/
def takeLong (level : Option Verb) (r : Reading) (word : List Char) : Except LineFault Reading :=
  let name := String.ofList (word.takeWhile (· != '='))
  let value := match word.dropWhile (· != '=') with
    | [] => none
    | _ :: value => some (String.ofList value)
  match (LineOption.known level).find? fun o => o.name == name with
  | none => .error .unknownArgument
  | some option =>
    if option.takesValue then .ok (r.mention option value)
    else if value.isSome then .error .unwantedValue
    else r.takeFlag option

/-- The value that the rest of a word holds. -/
def attached? : List Char → Option String
  | [] => none
  | '=' :: value => some (String.ofList value)
  | value => some (String.ofList value)

/-- Reads the letters that follow one dash. What follows the letter of an option with a value is
its value. -/
def takeShort (level : Option Verb) (r : Reading) : List Char → Except LineFault Reading
  | [] => .ok r
  | c :: rest =>
    match (LineOption.known level).find? fun o => o.letter? == some c with
    | none => .error .unknownArgument
    | some option =>
      if option.takesValue then .ok (r.mention option (attached? rest))
      else do takeShort level (← r.takeFlag option) rest

/-- Reads a word that is no option. Only the command that uploads has a place for one, and the
program itself takes it for the name of a command. -/
def takePlain (level : Option Verb) (r : Reading) (word : String) : Except LineFault Reading :=
  match level with
  | some .upload =>
    if r.directory.isSome then .error .unknownArgument
    else .ok { r with directory := some word, open? := none }
  | some _ => .error .unknownArgument
  | none =>
    if r.isPlain && Verb.names.contains word then .error .unknownArgument
    else if Verb.names.any (Text.isLike word ·) then .error .misspeltCommand
    else .error .unknownArgument

/-- Reads a word that does not end the level. -/
def take (level : Option Verb) (r : Reading) (word : String) : Except LineFault Reading :=
  if r.isPlain then r.takePlain level word
  else match word.toList with
    | ['-', '-'] => .ok { r with isPlain := true }
    | '-' :: '-' :: name => takeLong level r name
    | '-' :: c :: letters => takeShort level r (c :: letters)
    | _ =>
      match r.open? with
      | some option => .ok (r.supply option word)
      | none => r.takePlain level word

/-- Whether a word names a command here. -/
def namesCommand (r : Reading) (word : String) : Bool :=
  !r.isPlain && r.open?.isNone && Verb.names.contains word

/-- The last value of an option. -/
def value? (r : Reading) (option : LineOption) : Option String :=
  (r.mentions.find? fun m => m.option == option).bind fun m => m.values.reverse.findSome? id

/-- Whether an option is mentioned. -/
def has (r : Reading) (option : LineOption) : Bool := r.mentions.any fun m => m.option == option

/-- Whether the option at the end of the line never got a value. -/
def endsOpen (r : Reading) : Bool :=
  match r.open? with
  | some option => r.mentions.any fun m => m.option == option && m.lacksValue
  | none => false

/-- Whether everything is there that a command needs. -/
def isComplete (verb : Verb) (r : Reading) : Bool :=
  (LineOption.required verb).all r.has && (verb != .upload || r.directory.isSome)

/-- Checks the mentions in their order. -/
def checkMentions (r : Reading) : Except LineFault Unit := r.mentions.forM Mentions.check

/-- Checks the words of a command. -/
def check (verb : Verb) (r : Reading) : Except LineFault Unit :=
  if r.endsOpen then .error .missingValue
  else if !r.isComplete verb then .error .missingArgument
  else r.checkMentions

/-- Reads the words of a command. -/
def ofWords (verb : Verb) (words : List String) : Except LineFault Reading := do
  let r ← words.foldlM (take (some verb)) start
  r.check verb
  return r

/-- An option with a number as its value. -/
def number? (r : Reading) (option : LineOption) : Option UInt64 :=
  (r.value? option).bind Text.uint64?

/-- The environment that is taken without an option. -/
def defaultEnv : String := "devnet"

/-- The name of a record that is taken without an option. -/
def defaultCacheName : String := "temp"

/-- The rate limit that is taken without an option. -/
def defaultRateLimit : UInt64 := 5

def common (r : Reading) : CommonOptions where
  env := (r.value? .env).getD defaultEnv
  keypair := r.value? .keypair
  cacheName := (r.value? .cacheName).getD defaultCacheName
  rpcUrl := r.value? .rpcUrl

def collection (r : Reading) : CollectionOptions where
  rateLimit := (r.number? .rateLimit).getD defaultRateLimit
  collectionMint := r.value? .collectionMint
  noSetCollectionMint := r.has .noSetCollectionMint

/-- The command that was read. What it needs is there once the words are checked. -/
def command? (r : Reading) : Verb → Option Command
  | .deploy => do return .deploy r.common (← r.value? .configPath) r.collection
  | .upload => do return .upload (← r.directory) r.common (← r.value? .configPath) r.collection
  | .mintOne => some (.mintOne r.common)
  | .mintMany => do return .mintMany r.common (← r.number? .number)

end Reading

/-- A command line that was understood. -/
structure Invocation where
  /-- What is written to the log. -/
  logLevel : Option String
  command : Command
  deriving DecidableEq

namespace Invocation

/-- What to explain: the program, or one command, which has no commands of its own. -/
def explain : List String → LineFault
  | [] => .help
  | [word] => if Verb.names.contains word then .help else .unknownCommand
  | _ :: _ :: _ => .unknownCommand

/-- Reads a command after the options of the program. The level of the log that is written last
counts. -/
def ofVerb (outer : Reading) (verb : Verb) (words : List String) :
    Except LineFault Invocation := do
  let r ← Reading.ofWords verb words
  outer.checkMentions
  match r.command? verb with
  | some command => return ⟨(r.value? .logLevel).or (outer.value? .logLevel), command⟩
  | none => throw .missingArgument

/-- Reads the words from where the options of the program may stand. -/
def ofWordsFrom (r : Reading) : List String → Except LineFault Invocation
  | [] => if r.endsOpen then .error .missingValue else .error .missingCommand
  | word :: words =>
    if r.namesCommand word then
      match Verb.ofName? word with
      | some verb => ofVerb r verb words
      | none => .error (explain words)
    else do ofWordsFrom (← r.take none word) words

/-- Reads a command line. -/
def ofWords (words : List String) : Except LineFault Invocation := ofWordsFrom .start words

end Invocation

end CandyDrop
