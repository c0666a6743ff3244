/-
  CommitteeSync.Config.Lookup — the configuration read from named variables.

  A variable that the lookup does not have leaves its default. The variables are read in
  the order start epoch, log level, metrics interval, metadata key, and the first one that
  does not read is the answer; the finished configuration is validated after all of them.
-/

import CommitteeSync.Config.Basic
import CommitteeSync.Text.Quoted

namespace CommitteeSync.Config

def startEpochVar : String := "EPOCHSYNC_START_EPOCH"
def logLevelVar : String := "EPOCHSYNC_LOG_LEVEL"
def metricsIntervalVar : String := "EPOCHSYNC_METRICS_INTERVAL_SECS"
def metadataKeyVar : String := "EPOCHSYNC_METADATA_KEY"

/-- Every variable that is looked up, in reading order. -/
def variableNames : List String := [startEpochVar, logLevelVar, metricsIntervalVar, metadataKeyVar]

inductive LookupError where
  | startEpoch (raw : String) (cause : Text.IntegerError)
  | logLevel (raw : String)
  | metricsInterval (raw : String) (cause : Text.IntegerError)
  | invalid (cause : ConfigError)
  deriving DecidableEq, Repr

/-- What is wrong, outermost first. -/
def LookupError.chain : LookupError → List String
  | .startEpoch raw cause => [startEpochVar ++ " must be an integer, got " ++ Text.quote raw, cause.message]
  | .logLevel raw => [logLevelVar ++ " is not a valid level: " ++ Text.quote raw]
  | .metricsInterval raw cause =>
    [metricsIntervalVar ++ " must be a whole number of seconds, got " ++ Text.quote raw, cause.message]
  | .invalid cause => [cause.message]

def readStartEpoch (raw : String) : Except LookupError Setting :=
  match Text.readSigned (Text.trimChars raw.toList) with
  | .ok n => .ok (.startEpochSentinel n)
  | .error e => .error (.startEpoch raw e)

def readLogLevel (raw : String) : Except LookupError Setting :=
  match Level.read? (Text.trimChars raw.toList) with
  | some l => .ok (.logLevel l)
  | none => .error (.logLevel raw)

def readMetricsInterval (raw : String) : Except LookupError Setting :=
  match Text.readUnsigned (Text.trimChars raw.toList) with
  | .ok n => .ok (.metricsInterval (Span.ofSeconds (UInt64.ofNat n)))
  | .error e => .error (.metricsInterval raw e)

def readMetadataKey (raw : String) : Except LookupError Setting := .ok (.metadataKey raw)

/-- The readers in reading order, each with its variable. -/
def readers : List (String × (String → Except LookupError Setting)) :=
  [(startEpochVar, readStartEpoch), (logLevelVar, readLogLevel), (metricsIntervalVar, readMetricsInterval),
    (metadataKeyVar, readMetadataKey)]

/-- The settings that the variables present give, up to the first that does not read. -/
def readSettings (lookup : String → Option String) :
    List (String × (String → Except LookupError Setting)) → Except LookupError (List Setting)
  | [] => .ok []
  | (var, read) :: rest =>
    match lookup var with
    | none => readSettings lookup rest
    | some raw =>
      match read raw with
      | .error e => .error e
      | .ok setting =>
        match readSettings lookup rest with
        | .error e => .error e
        | .ok settings => .ok (setting :: settings)

def fromLookup (lookup : String → Option String) : Except LookupError Config :=
  match readSettings lookup readers with
  | .error e => .error e
  | .ok settings =>
    match ofSettings settings with
    | .ok config => .ok config
    | .error e => .error (.invalid e)

end CommitteeSync.Config
