import Muduo.Net.ConnectSteps
import Muduo.Net.LinkedSocket

/-!
# Clients

`TcpClient` with its connecting socket and its link, in the thread of its loop.
A link is here what it does with its descriptor: the handler in the poller of
the connecting socket, and the state.  The callbacks keep no copy of
`tcpLinkSPtr_`, so a link lives until the client or the running `handleClose`
lets go of it.
-/

namespace Muduo

open Library

structure TcpLink where
  handler : FdHandler
  state : StateE

/-- `LinkedSocket::shutdown` as far as the state goes. -/
def TcpLink.shutdown (link : TcpLink) : TcpLink :=
  if link.state = .kConnected then { link with state := .kDisconnecting }
  else link

structure TcpClient where
  connectSocket : ConnectSocket
  tcpLink : Option TcpLink
  retryFlag : Bool
  connectFlag : Bool
  nextLinkId : Nat
  destroyed : Bool

namespace TcpClient

def new : TcpClient :=
  { connectSocket := .new
    tcpLink := none
    retryFlag := false
    connectFlag := true
    nextLinkId := 1
    destroyed := false }

/-- `updateInPoll` of a link, whose loop is that of the client. -/
def updateLink (client : TcpClient) (handler : FdHandler) (flag : OptFlag) :
    Checked (TcpClient × FdHandler) := do
  let socket := client.connectSocket
  let (poller, handler) ← socket.poller.updateInPoll .link handler flag
  return ({ client with connectSocket := { socket with poller } }, handler)

/-- `~FdHandler` of a link. -/
def destroyLink (client : TcpClient) (handler : FdHandler) :
    Checked TcpClient := do
  let (client, handler) ← client.updateLink handler.disableAll .DelEvent
  let socket := client.connectSocket
  return { client with
    connectSocket := { socket with
      poller := socket.poller.closed handler.fd
      descriptors := socket.descriptors.release .link handler.fd } }

def connect (client : TcpClient) (attempt : Attempt) : Checked TcpClient := do
  let connectSocket ← client.connectSocket.start true attempt
  return { client with connectSocket, connectFlag := true }

def disconnect (client : TcpClient) : TcpClient :=
  { client with
    connectFlag := false
    tcpLink := client.tcpLink.map TcpLink.shutdown }

def stop (client : TcpClient) : TcpClient :=
  { client with
    connectFlag := false
    connectSocket := client.connectSocket.stop }

def enableRetry (client : TcpClient) : TcpClient :=
  { client with retryFlag := true }

/-- `newConnection`: the link takes the descriptor over. -/
def newConnection (client : TcpClient) (sockfd : Int) : Checked TcpClient := do
  let socket := client.connectSocket
  let client := { client with
    connectSocket := { socket with
      descriptors := socket.descriptors.pass .link sockfd }
    nextLinkId := client.nextLinkId + 1 }
  let handler := (FdHandler.new sockfd).enableReading
  let (client, handler) ← client.updateLink handler .AddEvent
  return { client with tcpLink := some { handler, state := .kConnected } }

/-- An event of the connecting socket. -/
def handleWrite (client : TcpClient) (check : SocketCheck) :
    Checked TcpClient := do
  let (connectSocket, given) ← client.connectSocket.handleWrite check
  let client := { client with connectSocket }
  match given with
  | none => return client
  | some sockfd => client.newConnection sockfd

/-- The link asks for write events, or no longer does, when it begins to queue
output or has written all of it. -/
def watchOutput (client : TcpClient) (link : TcpLink) (writing : Bool) :
    Checked TcpClient := do
  let handler := if writing then link.handler.enableWriting
    else link.handler.disableWriting
  let (client, handler) ← client.updateLink handler .ModEvent
  return { client with tcpLink := some { link with handler } }

/-- `LinkedSocket::handleClose` up to the call of `delConnection`. -/
def startClose (client : TcpClient) (link : TcpLink) :
    Checked (TcpClient × FdHandler) := do
  assertThat (link.state = .kConnected ∨ link.state = .kDisconnecting)
    .handleClose
  client.updateLink link.handler.disableAll .ModEvent

def delConnection (client : TcpClient) (handler : FdHandler)
    (attempt : Attempt) : Checked (TcpClient × FdHandler) := do
  let (client, handler) ← client.updateLink handler .DelEvent
  let client := { client with tcpLink := none }
  if client.retryFlag ∧ client.connectFlag then
    let connectSocket ← client.connectSocket.restart attempt
    return ({ client with connectSocket }, handler)
  else return (client, handler)

/-- `LinkedSocket::handleClose`.  The link is destroyed when it returns. -/
def handleClose (client : TcpClient) (link : TcpLink) (attempt : Attempt) :
    Checked TcpClient := do
  let (client, handler) ← client.startClose link
  let (client, handler) ← client.delConnection handler attempt
  client.destroyLink handler

/-- `~TcpClient` destroys the link, then the connecting socket. -/
def destroy (client : TcpClient) : Checked TcpClient := do
  let client ← match client.tcpLink with
    | none => .ok client
    | some link =>
        let client := { client with tcpLink := none }
        client.destroyLink link.handler
  let connectSocket ← client.connectSocket.deregister
  return { client with
    connectSocket := connectSocket.close
    destroyed := true }

end TcpClient

end Muduo
