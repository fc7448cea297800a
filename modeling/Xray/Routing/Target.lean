import Xray.Lib.Ascii
import Xray.Routing.IpRangeSet

/-!
# Targets (`xray-routing/src/lib.rs`)

Where a flow goes: an address or a name, a port and a network. A name is the
UTF-8 bytes of the source's `String`.
-/

namespace Xray.Routing

open Ascii

inductive Network where
  | tcp
  | udp
deriving DecidableEq

inductive TargetAddr where
  | ip (address : IpAddr)
  | domain (name : Str)
deriving DecidableEq

structure Target where
  addr : TargetAddr
  port : UInt16
  network : Network
deriving DecidableEq

end Xray.Routing
