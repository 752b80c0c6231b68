/-
The configuration of the web server.
-/
import Reckoner.Graph.Sample

namespace Reckoner

/-- Where the server listens and what it allows. -/
structure ServerConfig where
  host : String
  port : Nat
  /-- The most samples of a graph that one request can have. -/
  maxGraphSamples : Nat
  deriving DecidableEq

namespace ServerConfig

/-- The host on which the server listens unless told otherwise. -/
def defaultHost : String := "127.0.0.1"

/-- The port on which the server listens unless told otherwise. -/
def defaultPort : Nat := 5000

/-- A server on a host and port that allows what servers allow unless told otherwise. -/
def listening (host : String) (port : Nat) : ServerConfig := ⟨host, port, Graph.defaultMaxSamples⟩

/-- The address to bind; a host with colons in it is put in brackets unless it starts with one. -/
def bindAddress (c : ServerConfig) : String :=
  let cs := c.host.toList
  let host := if ':' ∈ cs ∧ cs.head? ≠ some '[' then "[" ++ c.host ++ "]" else c.host
  host ++ ":" ++ toString c.port

end ServerConfig

end Reckoner
