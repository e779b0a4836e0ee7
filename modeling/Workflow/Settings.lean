import Workflow.Failure
import Workflow.Retry
import Workflow.Text.Blank
import Workflow.Text.Numeral

/-!
# Settings

The settings are read from named variables. Each variable that is consulted has to be
well-formed, and the first offending one is reported. A blank number counts as absent.
-/

namespace Workflow

inductive Backend where
  | inMemory
  | postgres (url : String) (maxConnections : Nat)
  deriving DecidableEq, Repr, Inhabited

inductive Variable where
  | eventStore
  | databaseUrl
  | maxConnections
  | retryMaxAttempts
  | retryBaseDelay
  deriving DecidableEq, Repr, Inhabited

def Variable.name : Variable → String
  | eventStore => "PROCFLOW_EVENT_STORE"
  | databaseUrl => "DATABASE_URL"
  | maxConnections => "PROCFLOW_DB_MAX_CONNECTIONS"
  | retryMaxAttempts => "PROCFLOW_RETRY_MAX_ATTEMPTS"
  | retryBaseDelay => "PROCFLOW_RETRY_BASE_DELAY_MS"

inductive SettingsError where
  | missing (which : Variable)
  | invalid (which : Variable) (value : String)
  deriving DecidableEq, Repr, Inhabited

def SettingsError.message : SettingsError → String
  | missing which => "missing required environment variable " ++ which.name
  | invalid which value => "invalid value for " ++ which.name ++ ": '" ++ value ++ "'"

namespace Backend

/-- Whether a URL starts with a scheme: a letter, then letters, digits, `+`, `-` or `.`, then a
colon. Spaces and control characters in front of it do not count, nor do tabs and line ends in
it. -/
def hasScheme (url : String) : Bool :=
  match (url.toList.dropWhile (· ≤ ' ')).filter (!"\t\n\r".toList.contains ·) with
  | [] => false
  | c :: cs =>
    c.isAlpha && (cs.dropWhile fun d => d.isAlphanum || "+-.".toList.contains d).head? == some ':'

/-- Checks that the backend can be opened, without opening it. -/
def check : Backend → Except DeliveryError Unit
  | inMemory => .ok ()
  | postgres url _ =>
    if hasScheme url then .ok ()
    else .error (.store (.database
      "invalid database url: error with configuration: relative URL without a base"))

end Backend

structure Settings where
  backend : Backend
  retry : RetryPolicy
  deriving DecidableEq, Repr, Inhabited

namespace Settings

def standard : Settings := ⟨.inMemory, .standard⟩

def defaultConnections : Nat := 5

/-- A variable that is absent or blank has its default; any other has to be a numeral below
`bound`. -/
def readNumber (lookup : String → Option String) (which : Variable) (bound default : Nat) :
    Except SettingsError Nat :=
  match lookup which.name with
  | none => .ok default
  | some raw =>
    if Text.trim raw = "" then .ok default
    else
      match Text.numeral? bound (Text.trim raw) with
      | some n => .ok n
      | none => .error (.invalid which raw)

def readDatabase (lookup : String → Option String) : Except SettingsError Backend :=
  match (lookup Variable.databaseUrl.name).filter (Text.trim · ≠ "") with
  | none => .error (.missing .databaseUrl)
  | some url => do
    let connections ← readNumber lookup .maxConnections Word.count32 defaultConnections
    if connections = 0 then .error (.invalid .maxConnections "0")
    else .ok (.postgres url connections)

def readBackend (lookup : String → Option String) : Except SettingsError Backend :=
  match (lookup Variable.eventStore.name).map Text.trim with
  | none => .ok .inMemory
  | some kind =>
    if kind = "" ∨ kind = "in-memory" ∨ kind = "memory" then .ok .inMemory
    else if kind = "postgres" then readDatabase lookup
    else .error (.invalid .eventStore kind)

/-- Reads the store, then the number of retries, then the first wait. -/
def read (lookup : String → Option String) : Except SettingsError Settings := do
  let store ← readBackend lookup
  let attempts ← readNumber lookup .retryMaxAttempts Word.count32 RetryPolicy.standard.maxAttempts
  let delay ← readNumber lookup .retryBaseDelay Word.count64 RetryPolicy.standard.baseDelay.milliseconds
  .ok ⟨store, (RetryPolicy.standard.withMaxAttempts attempts).withBaseDelay
    (.ofMilliseconds delay)⟩

def policy (settings : Settings) : Except DeliveryError RetryPolicy :=
  settings.backend.check.map fun _ => settings.retry

end Settings

end Workflow
