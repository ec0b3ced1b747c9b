import Muduo.Base.InetAddress
import Muduo.Library.Machine
import Muduo.Library.Ownership
import Muduo.Net.LinkedSocket

/-!
# The names of a server's links

`TcpServer` without threads of its own.  Links are known by their place in the order
in which they were created, as the source knows them by their addresses; the map
`name2connection` knows them by name, and the name ends where 63 bytes of the text
behind the name of the server are full.
-/

namespace Muduo

open Library

/-- The context of a link is the number of the `HttpContext` that it holds. -/
structure ServedLink where
  name : List Byte
  state : StateE
  context : Option Nat
  deriving DecidableEq

/-- `links` are the links created so far, also those that are closed, and `contexts`
counts the contexts that were created. -/
structure TcpServer where
  name : List Byte
  listenAddr : InetAddress
  connId : Nat
  name2connection : List Byte → Option Nat
  links : List ServedLink
  contexts : Nat

namespace TcpServer

def new (name : List Byte) (listenAddr : InetAddress) : TcpServer :=
  { name, listenAddr, connId := 1, name2connection := fun _ => none, links := []
    contexts := 0 }

/-- What `snprintf` leaves in `logBuf`, less the final zero. -/
def logBuf (ipPort : List Byte) (connId : Nat) : List Byte :=
  (ascii "ipPort: " ++ ipPort ++ ascii ", connect ID: " ++
    ascii (toString connId)).take 63

def connName (server : TcpServer) (connId : Nat) : List Byte :=
  server.name ++ logBuf server.listenAddr.toIpPort connId

def updateLink (server : TcpServer) (conn : Nat)
    (change : ServedLink → ServedLink) : TcpServer :=
  { server with links := server.links.modify conn change }

def setState (server : TcpServer) (conn : Nat) (state : StateE) : TcpServer :=
  server.updateLink conn fun link => { link with state }

def newConnection (server : TcpServer) : Checked TcpServer := do
  let connName := server.connName server.connId
  let server := { server with connId := server.connId + 1 }
  assertThat (server.name2connection connName = none) .newConnectionInsert
  return { server with
    name2connection :=
      write server.name2connection connName (some server.links.length)
    links := server.links ++
      [{ name := connName, state := .kConnected, context := none }] }

/-- The end of `HttpServer::newConnection`: a connected link gets a new context. -/
def attach (server : TcpServer) (conn : Nat) : TcpServer :=
  match server.links[conn]? with
  | some link =>
      if link.state = .kConnected then
        { server.updateLink conn
            fun link => { link with context := some server.contexts } with
          contexts := server.contexts + 1 }
      else server
  | none => server

/-- `HttpServer::newConnection`, which looks its link up by its name. -/
def httpNewConnection (server : TcpServer) : Checked TcpServer := do
  let server ← server.newConnection
  match server.name2connection (server.connName (server.connId - 1)) with
  | some conn => return server.attach conn
  | none => .error .newConnectionFind

def delConnection (server : TcpServer) (name : List Byte) : TcpServer :=
  { server with name2connection := write server.name2connection name none }

/-- `LinkedSocket::handleClose` as the server hears of it. -/
def handleClose (server : TcpServer) (conn : Nat) : TcpServer :=
  match server.links[conn]? with
  | some link =>
      (server.setState conn .kDisconnected).delConnection link.name
  | none => server

end TcpServer

/-- `shutdown` is a half-close of a link by its user. -/
inductive TcpServerAction where
  | newConnection
  | shutdown (conn : Nat)
  | handleClose (conn : Nat)
  deriving DecidableEq, Repr

namespace TcpServer

/-- `int` numbers are left for the connections, and only links that are open are
shut down or closed. -/
def Enabled (server : TcpServer) : TcpServerAction → Prop
  | .newConnection => server.links.length + 1 < 2147483647
  | .shutdown conn => ∃ link ∈ server.links[conn]?, link.state = .kConnected
  | .handleClose conn => ∃ link ∈ server.links[conn]?, link.state ≠ .kDisconnected

/-- `http` tells an `HttpServer` from a plain `TcpServer`. -/
def step (http : Bool) (server : TcpServer) : TcpServerAction → Checked TcpServer
  | .newConnection =>
      if http then server.httpNewConnection else server.newConnection
  | .shutdown conn => .ok (server.setState conn .kDisconnecting)
  | .handleClose conn => .ok (server.handleClose conn)

end TcpServer

def serverMachine (http : Bool) : Machine TcpServer TcpServerAction Fault where
  enabled := TcpServer.Enabled
  step := TcpServer.step http

namespace TcpServer

/-- No two links have one name, the map holds the links that are not closed, and each
link of an `HttpServer` has the context that was made for it. -/
structure Named (http : Bool) (server : TcpServer) : Prop where
  distinct : (server.links.map ServedLink.name).Nodup
  mapped : ∀ name conn, server.name2connection name = some conn ↔
    ∃ link, server.links[conn]? = some link ∧ link.name = name ∧
      link.state ≠ .kDisconnected
  contexts : ∀ conn (link : ServedLink), server.links[conn]? = some link →
    link.context = if http then some conn else none

/-- The numbers of `count` connections are not cut in their names. -/
def Fits (listenAddr : InetAddress) (count : Nat) : Prop :=
  count ≤ 1 ∨ listenAddr.toIpPort.length + (ascii (toString count)).length ≤ 41

/-- The connections that the actions accept. -/
def accepted (actions : List TcpServerAction) : Nat :=
  actions.count .newConnection

end TcpServer

end Muduo
