/-
`TCPServer::bind` (tcp_server.cpp).

The addresses are of any kind that has a family. What the kernel answers
for each of them comes with it in the list. `Socket::CreateTCP` takes the
family of the address, and so does `getFamily`.
-/
import TinyServer.Socket.Basic

namespace TinyServer.Net

open Http (Bytes)

/-- What the kernel answers when an address is bound: to `socket`, to
`::bind` and to `::listen`. -/
structure Answers where
  fd : Option (Nat × Bytes)
  bound : Option Bytes
  listens : Bool
  deriving DecidableEq, Repr

namespace TcpServer

variable {α : Type} (e : Endian) (getFamily : α → BitVec 16)

/-- `Socket::CreateTCP`. -/
def createTCP (address : α) : Socket :=
  .new ((getFamily address).setWidth 32)

/-- The loop over the addresses, with `m_sockets` and `fails`. -/
def bindLoop : List (α × Answers) → List Socket → List α → List Socket × List α
  | [], sockets, fails => (sockets, fails)
  | (item, k) :: rest, sockets, fails =>
      let (bound, sock) :=
        (createTCP getFamily item).bind e (getFamily item) k.fd k.bound
      if bound = false then bindLoop rest sockets (fails ++ [item])
      else
        let (listening, sock) := sock.listen k.listens
        if listening = false then bindLoop rest sockets (fails ++ [item])
        else bindLoop rest (sockets ++ [sock]) fails

/-- `TCPServer::bind`: what it returns, `m_sockets` and `fails`. -/
def bind (addrs : List (α × Answers)) (sockets : List Socket) (fails : List α) :
    Bool × List Socket × List α :=
  let (sockets, fails) := bindLoop e getFamily addrs sockets fails
  if fails = [] then (true, sockets, fails) else (false, [], fails)

end TcpServer

end TinyServer.Net
