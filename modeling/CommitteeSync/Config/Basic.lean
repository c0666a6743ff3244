/-
  CommitteeSync.Config.Basic — settings of the synchronizer, and their builder.

  A configuration is made only if its reporting interval is positive and its metadata key
  has a character that is not blank; the key is kept without blanks at its ends. The
  interval is checked before the key.
-/

import CommitteeSync.Chain.Schedule
import CommitteeSync.Config.Level
import CommitteeSync.Text.Blank

namespace CommitteeSync

/-- The metadata key of the progress record unless the configuration names another. -/
def defaultMetadataKey : String := "beaconcommittees.standard"

/-- How often metrics are reported unless the configuration says otherwise. -/
def defaultMetricsInterval : Span := Span.ofSeconds 5

inductive ConfigError where
  | zeroMetricsInterval
  | emptyMetadataKey
  deriving DecidableEq, Repr

def ConfigError.message : ConfigError → String
  | .zeroMetricsInterval => "metrics_interval must be greater than 0"
  | .emptyMetadataKey => "metadata_key cannot be empty"

structure Config where
  logLevel : Level
  metricsInterval : Span
  metadataKey : String
  /-- Where to start catching up instead of after stored progress. -/
  startEpoch : Option Epoch
  deriving DecidableEq, Repr

namespace Config

def validate (c : Config) : Except ConfigError Unit :=
  if c.metricsInterval.isZero then .error .zeroMetricsInterval
  else if (Text.trim c.metadataKey).isEmpty then .error .emptyMetadataKey
  else .ok ()

/-- Trims the metadata key and validates. -/
def make (logLevel : Level) (metricsInterval : Span) (metadataKey : String) (startEpoch : Option Epoch) :
    Except ConfigError Config :=
  let config : Config := ⟨logLevel, metricsInterval, Text.trim metadataKey, startEpoch⟩
  match config.validate with
  | .ok () => .ok config
  | .error e => .error e

/-- Settings given so far. -/
structure Builder where
  logLevel : Option Level
  metricsInterval : Option Span
  metadataKey : Option String
  startEpoch : Option Epoch
  deriving DecidableEq, Repr

def Builder.empty : Builder := ⟨none, none, none, none⟩

/-- One setting. The sentinel is the signed spelling of the start epoch: negative means none. -/
inductive Setting where
  | logLevel (l : Level)
  | metricsInterval (d : Span)
  | metadataKey (key : String)
  | startEpoch (e : Epoch)
  | startEpochSentinel (n : Int)
  deriving DecidableEq, Repr

/-- The start epoch that a sentinel stands for. -/
def epochOfSentinel (n : Int) : Option Epoch := if n < 0 then none else some (UInt64.ofNat n.toNat)

def Builder.set (b : Builder) : Setting → Builder
  | .logLevel l => { b with logLevel := some l }
  | .metricsInterval d => { b with metricsInterval := some d }
  | .metadataKey key => { b with metadataKey := some key }
  | .startEpoch e => { b with startEpoch := some e }
  | .startEpochSentinel n => { b with startEpoch := epochOfSentinel n }

def Builder.build (b : Builder) : Except ConfigError Config :=
  make (b.logLevel.getD .info) (b.metricsInterval.getD defaultMetricsInterval)
    (b.metadataKey.getD defaultMetadataKey) b.startEpoch

/-- Applies the settings in order, then builds. -/
def ofSettings (settings : List Setting) : Except ConfigError Config :=
  (settings.foldl Builder.set Builder.empty).build

end Config

end CommitteeSync
