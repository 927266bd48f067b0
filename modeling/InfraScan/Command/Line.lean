/-!
# Command lines

The words of a command line, read from left to right.  Options stand anywhere; two of them are
known at every level, and what stands deeper wins.  The first word that cannot be read decides
the outcome, unless a request for help or for the version stands before it.

* `Verb`, `Opt` — the words that are known
* `Level` — one level of a command line as far as it was read
* `Level.read` — one word more
* `Invocation` — a command line that can be run
* `Invocation.ofWords` — the invocation that words ask for
-/

namespace InfraScan.Command

/-- What the program can do. -/
inductive Verb where
  | context
  | images
  | completions
  deriving Repr, DecidableEq

namespace Verb

/-- The word for a verb. -/
def word : Verb → String
  | .context => "context"
  | .images => "images"
  | .completions => "completions"

/-- All verbs. -/
def all : List Verb := [.context, .images, .completions]

/-- The verb that a word names. -/
def ofWord? (word : String) : Option Verb := all.find? fun verb => verb.word = word

end Verb

/-- The word that asks for help on other words. -/
def helpWord : String := "help"

/-- The shells that completions can be made for. -/
inductive Shell where
  | bash
  | elvish
  | fish
  | powershell
  | zsh
  deriving Repr, DecidableEq

/-- The shell that a word names. -/
def Shell.ofWord? : String → Option Shell
  | "bash" => some .bash
  | "elvish" => some .elvish
  | "fish" => some .fish
  | "powershell" => some .powershell
  | "zsh" => some .zsh
  | _ => none

/-- A verb takes a word for its operand: a path, which is not empty, or the name of a
shell. -/
def Verb.acceptsOperand (verb : Verb) (word : String) : Bool :=
  match verb with
  | .context | .images => !word.isEmpty
  | .completions => (Shell.ofWord? word).isSome

/-- **An option.** -/
inductive Opt where
  | config
  | logLevel
  | help
  | version
  | noSkipComments
  | format
  deriving Repr, DecidableEq

namespace Opt

/-- The long name of an option. -/
def long : Opt → String
  | .config => "config"
  | .logLevel => "log-level"
  | .help => "help"
  | .version => "version"
  | .noSkipComments => "no-skip-comments"
  | .format => "format"

/-- The letter of an option. -/
def letter? : Opt → Option Char
  | .help => some 'h'
  | .version => some 'V'
  | .format => some 'f'
  | _ => none

/-- The option has a value. -/
def takesValue : Opt → Bool
  | .config | .logLevel | .format => true
  | .help | .version | .noSkipComments => false

/-- The value is one that the option can have: a path is not empty. -/
def accepts (opt : Opt) (value : String) : Bool := opt ≠ .config || !value.isEmpty

/-- The options that are known before a verb. -/
def beforeVerb : List Opt := [.config, .logLevel, .help, .version]

/-- The options that are known after a verb. -/
def after : Verb → List Opt
  | .context => [.config, .logLevel, .help, .noSkipComments, .format]
  | .images => [.config, .logLevel, .help, .format]
  | .completions => [.config, .logLevel, .help]

end Opt

/-- Why a command line is not run. -/
inductive Halt where
  | usage
  | help
  | version
  deriving Repr, DecidableEq

/-! ### Levels -/

/-- **One level of a command line as far as it was read.**  An option that is pending was
named last; its value may not have been read yet, and is looked at when the next option is.  A
word that is no option is an operand, of which there is one at most. -/
structure Level where
  known : List Opt
  accepts : String → Bool
  given : List (Opt × String)
  pending : Option (Opt × Option String)
  operand : Option String
  onlyOperands : Bool

namespace Level

/-- A level of which nothing was read. -/
def start (known : List Opt) (accepts : String → Bool) : Level :=
  ⟨known, accepts, [], none, none, false⟩

/-- The level before a verb; it has no operand. -/
def beforeVerb : Level := start Opt.beforeVerb fun _ => false

/-- The level after a verb. -/
def after (verb : Verb) : Level := start (Opt.after verb) verb.acceptsOperand

/-- The value that an option was given. -/
def value? (level : Level) (opt : Opt) : Option String :=
  (level.given.find? fun given => given.1 = opt).map Prod.snd

/-- Give an option a value.  No option is given twice. -/
def give (level : Level) (opt : Opt) (value : String) : Except Halt Level :=
  if (level.value? opt).isSome || !opt.accepts value then .error .usage
  else .ok { level with given := level.given ++ [(opt, value)] }

/-- Look at the pending option. -/
def settle (level : Level) : Except Halt Level :=
  match level.pending with
  | none => .ok level
  | some (_, none) => .error .usage
  | some (opt, some value) => { level with pending := none }.give opt value

/-- An option without a value. -/
def raise (level : Level) (opt : Opt) : Except Halt Level := do
  let level ← level.settle
  match opt with
  | .help => .error .help
  | .version => .error .version
  | opt => level.give opt ""

/-- An option with a value that stands in the same word, or will stand in the next one. -/
def open? (level : Level) (opt : Opt) (attached : Option String) : Except Halt Level := do
  let level ← level.settle
  match attached with
  | some value => level.give opt value
  | none => .ok { level with pending := some (opt, none) }

/-- A word that begins with two dashes, without them. -/
def readLong (level : Level) (body : List Char) : Except Halt Level :=
  let name := String.ofList (body.takeWhile (· ≠ '='))
  let attached := match body.dropWhile (· ≠ '=') with
    | _ :: value => some (String.ofList value)
    | [] => none
  match level.known.find? fun opt => opt.long = name with
  | none => .error .usage
  | some opt =>
    if opt.takesValue then level.open? opt attached
    else if attached.isSome then .error .usage
    else level.raise opt

/-- The letters of a word that begins with one dash.  A letter with a value takes what is left
of the word, without an equals sign before it. -/
def readLetters (level : Level) : List Char → Except Halt Level
  | [] => .ok level
  | c :: rest =>
    match level.known.find? fun opt => opt.letter? = some c with
    | none => .error .usage
    | some opt =>
      if opt.takesValue then
        level.open? opt (match rest with
          | [] => none
          | '=' :: value => some (String.ofList value)
          | value => some (String.ofList value))
      else
        match level.raise opt with
        | .error halt => .error halt
        | .ok level => readLetters level rest

/-- A word that is no option. -/
def readOperand (level : Level) (word : String) : Except Halt Level := do
  let level ← level.settle
  if level.operand.isSome || !level.accepts word then .error .usage
  else .ok { level with operand := some word }

/-- The option that waits for its value. -/
def awaits? (level : Level) : Option Opt :=
  match level.pending with
  | some (opt, none) => some opt
  | _ => none

/-- **One word more.** -/
def read (level : Level) (word : String) : Except Halt Level :=
  if level.onlyOperands then level.readOperand word
  else
    match word.toList with
    | ['-', '-'] => .ok { level with onlyOperands := true }
    | '-' :: '-' :: body => level.readLong body
    | '-' :: c :: rest => level.readLetters (c :: rest)
    | _ =>
      match level.awaits? with
      | some opt => .ok { level with pending := some (opt, some word) }
      | none => level.readOperand word

end Level

/-! ### Invocations -/

/-- What is to be done. -/
inductive Task where
  | context (path : String) (collect : Bool) (format : String)
  | images (path format : String)
  | completions (shell : Shell)
  deriving Repr, DecidableEq

/-- **A command line that can be run.** -/
structure Invocation where
  config : Option String
  logLevel : String
  task : Task
  deriving Repr, DecidableEq

namespace Invocation

/-- The format of a report that is not chosen. -/
def defaultFormat : String := "text"

/-- The log level that is not chosen. -/
def defaultLogLevel : String := "warn"

/-- The folder in which images are looked for when none is named. -/
def defaultPath : String := "."

/-- The words before the verb, the verb, and the words after it.  A word that is the value of
an option is no verb. -/
def splitAtVerb : Level → List String → Except Halt (Level × Option (String × List String))
  | level, [] => .ok (level, none)
  | level, word :: rest =>
    if !level.onlyOperands && level.awaits?.isNone &&
        (word = helpWord || (Verb.ofWord? word).isSome) then
      .ok (level, some (word, rest))
    else
      match level.read word with
      | .error halt => .error halt
      | .ok next => splitAtVerb next rest

/-- The words after a verb. -/
def readAfter : Level → List String → Except Halt Level
  | level, [] => level.settle
  | level, word :: rest =>
    match level.read word with
    | .error halt => .error halt
    | .ok next => readAfter next rest

/-- The task that the words after a verb ask for. -/
def taskOf (verb : Verb) (level : Level) : Except Halt Task :=
  let format := (level.value? .format).getD defaultFormat
  match verb with
  | .context =>
    match level.operand with
    | none => .error .usage
    | some path => .ok (.context path (level.value? .noSkipComments).isNone format)
  | .images => .ok (.images (level.operand.getD defaultPath) format)
  | .completions =>
    match level.operand.bind Shell.ofWord? with
    | none => .error .usage
    | some shell => .ok (.completions shell)

/-- The words after the word for help: at most one, which is a verb or that word again. -/
def helpOn : List String → Halt
  | [] => .help
  | [word] => if word = helpWord || (Verb.ofWord? word).isSome then .help else .usage
  | _ => .usage

/-- **The invocation that words ask for.** -/
def ofWords (words : List String) : Except Halt Invocation := do
  let (outer, found) ← splitAtVerb .beforeVerb words
  match found with
  | none => .error .usage
  | some (word, rest) =>
    match Verb.ofWord? word with
    | none => .error (helpOn rest)
    | some verb =>
      let inner ← readAfter (.after verb) rest
      let task ← taskOf verb inner
      let outer ← outer.settle
      let global (opt : Opt) : Option String := (inner.value? opt).or (outer.value? opt)
      .ok ⟨global .config, (global .logLevel).getD defaultLogLevel, task⟩

end Invocation

end InfraScan.Command
