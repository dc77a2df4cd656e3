/-!
# Faults in URLs
-/
namespace Bindery.Url

/-- Why a text is not a URL. -/
inductive Fault where
  /-- A relative reference that stands alone. -/
  | noBase
  /-- A relative reference to a URL whose path is no hierarchy. -/
  | flatBase
  | emptyHost
  | port
  | domain
  | hostCharacter
  | ipv4
  | ipv6
  deriving DecidableEq, Repr

def Fault.message : Fault → String
  | .noBase => "relative URL without a base"
  | .flatBase => "relative URL with a cannot-be-a-base base"
  | .emptyHost => "empty host"
  | .port => "invalid port number"
  | .domain => "invalid international domain name"
  | .hostCharacter => "invalid domain character"
  | .ipv4 => "invalid IPv4 address"
  | .ipv6 => "invalid IPv6 address"

end Bindery.Url
