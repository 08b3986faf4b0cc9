import CardGate.Settings.Environment
import CardGate.Text.Numeral
import CardGate.Token.Format

/-!
# Settings of the gateway

The gateway is configured by its server, its tokens and its two keys.  Every setting has a
variable of its own; `GatewaySettings.ofEnvironment` says which.
-/

namespace CardGate

/-- Where the server listens and what it takes. -/
structure ServerSettings where
  host : String
  port : Nat
  /-- The greatest body in bytes. -/
  maxBody : Nat
  /-- The number of connections that clients are told. -/
  maxConnections : Nat
  deriving DecidableEq, Repr

namespace ServerSettings

/-- A server for everybody. -/
def standard : ServerSettings :=
  ⟨"0.0.0.0", 1344, 10 * 1024 * 1024, 100⟩

/-- A server for its own machine only. -/
def development : ServerSettings :=
  { standard with host := "127.0.0.1" }

/-- The address to listen on. -/
def address (settings : ServerSettings) : String :=
  s!"{settings.host}:{settings.port}"

end ServerSettings

/-- How tokens are made and kept. -/
structure TokenizerSettings where
  format : TokenFormat
  /-- Whether cards are encrypted under the key hierarchy. -/
  useHierarchy : Bool
  /-- Whether every substitution is logged. -/
  debug : Bool
  deriving DecidableEq, Repr

namespace TokenizerSettings

/-- The settings for a token format. -/
def ofFormat (format : TokenFormat) : TokenizerSettings :=
  ⟨format, false, false⟩

/-- The settings of a gateway that says nothing. -/
def standard : TokenizerSettings :=
  ofFormat default

/-- The same with logging. -/
def development : TokenizerSettings :=
  { standard with debug := true }

end TokenizerSettings

/-- All settings of a gateway. -/
structure GatewaySettings where
  server : ServerSettings
  tokenizer : TokenizerSettings
  /-- The single key, as base64. -/
  encryptionKey : Option String
  /-- The master key of the hierarchy, as base64. -/
  masterKey : Option String
  deriving DecidableEq, Repr

namespace GatewaySettings

/-- A decimal number below a bound. -/
def numberBelow? (bound : Nat) (s : String) : Option Nat :=
  Numeral.decimalBelow? bound s.toList

/-- The settings that an environment says. -/
def ofEnvironment (env : Environment) : GatewaySettings :=
  let server := ServerSettings.standard
  let tokenizer := TokenizerSettings.standard
  { server :=
      { host := env.valueOr "ICAP_HOST" server.host
        port := env.readOr (numberBelow? UInt16.size) "ICAP_PORT" server.port
        maxBody := env.readOr (numberBelow? Numeral.sizeBound) "ICAP_MAX_BODY_BYTES" server.maxBody
        maxConnections :=
          env.readOr (numberBelow? UInt32.size) "ICAP_MAX_CONNECTIONS" server.maxConnections }
    tokenizer :=
      { format := env.readOr TokenFormat.ofName? "TOKEN_FORMAT" tokenizer.format
        useHierarchy := env.flagOr "USE_KEK_DEK" tokenizer.useHierarchy
        debug := env.flagOr "DEBUG_MODE" tokenizer.debug }
    encryptionKey := env.value? "ENCRYPTION_KEY"
    masterKey := env.value? "KEK_KEY" }

/-- What is logged when nothing else is said. -/
def logFilter (settings : GatewaySettings) : String :=
  if settings.tokenizer.debug then "icapd=debug,icap=debug,tokenizer=debug,platform=debug"
  else "icapd=info,icap=info,tokenizer=info,platform=info"

end GatewaySettings

end CardGate
