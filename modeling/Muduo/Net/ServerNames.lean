import Mathlib.Data.List.Nodup
import Muduo.Library.CutNumerals
import Muduo.Net.TcpServer

/-!
# The names of a server's links differ as far as they are long enough

The numbers of the connections are the last thing in a name.  They stay apart as long
as the room behind the address takes all their digits, and then the map and the
contexts of the server are as they should be.  For IPv4 there is always room.
-/

namespace Muduo

open Library

namespace TcpServer

theorem char_of_toUInt8 {c : Char} (digit : c.isDigit = true) :
    Char.ofNat c.toUInt8.toNat = c := by
  rw [(toUInt8_digit digit).2.2, Char.ofNat_toNat]

theorem digits_of_bytes {digits : List Char}
    (every : ∀ c ∈ digits, c.isDigit = true) :
    (digits.map Char.toUInt8).map (fun byte => Char.ofNat byte.toNat) =
      digits := by
  rw [List.map_map]
  have same : ∀ c ∈ digits,
      ((fun byte : Byte => Char.ofNat byte.toNat) ∘ Char.toUInt8) c = id c :=
    fun c member => char_of_toUInt8 (every c member)
  rw [List.map_congr_left same, List.map_id]

theorem take_ascii_eq_iff {room first second : Nat} :
    (ascii (toString first)).take room = (ascii (toString second)).take room ↔
      cutNumeral 10 room first = cutNumeral 10 room second := by
  have cut : ∀ number, (ascii (toString number)).take room =
      (cutNumeral 10 room number).map Char.toUInt8 := by
    intro number
    rw [ascii_toString, cutNumeral, List.map_take]
  have digits : ∀ number, ∀ c ∈ cutNumeral 10 room number, c.isDigit = true := by
    intro number c member
    exact isDigit_of_mem (List.mem_of_mem_take member)
  rw [cut, cut]
  constructor
  · intro same
    rw [← digits_of_bytes (digits first), same, digits_of_bytes (digits second)]
  · intro same
    rw [same]

/-- What `logBuf` has room for behind the text of the address. -/
theorem logBuf_eq_iff {ipPort : List Byte} {first second : Nat} :
    logBuf ipPort first = logBuf ipPort second ↔
      cutNumeral 10 (41 - ipPort.length) first =
        cutNumeral 10 (41 - ipPort.length) second := by
  have front : (ascii "ipPort: " ++ ipPort ++ ascii ", connect ID: ").length =
      ipPort.length + 22 := by
    have before : (ascii "ipPort: ").length = 8 := rfl
    have behind : (ascii ", connect ID: ").length = 14 := rfl
    simp only [List.length_append, before, behind]
    omega
  have room : 63 - (ipPort.length + 22) = 41 - ipPort.length := by omega
  have whole : ∀ number, logBuf ipPort number =
      (ascii "ipPort: " ++ ipPort ++ ascii ", connect ID: ").take 63 ++
        (ascii (toString number)).take (41 - ipPort.length) := by
    intro number
    rw [logBuf, List.take_append, front, room]
  rw [whole, whole, List.append_cancel_left_eq, take_ascii_eq_iff]

theorem connName_eq_iff {server : TcpServer} {first second : Nat} :
    server.connName first = server.connName second ↔
      cutNumeral 10 (41 - server.listenAddr.toIpPort.length) first =
        cutNumeral 10 (41 - server.listenAddr.toIpPort.length) second := by
  rw [connName, connName, List.append_cancel_left_eq, logBuf_eq_iff]

/-- The names of the first connections differ exactly if the last number fits. -/
theorem names_apart_iff {server : TcpServer} {count : Nat} :
    ((List.range count).map fun conn => server.connName (conn + 1)).Nodup ↔
      Fits server.listenAddr count := by
  have fits : Fits server.listenAddr count ↔
      count ≤ 1 ∨ (Nat.toDigits 10 count).length ≤
        41 - server.listenAddr.toIpPort.length := by
    have positive : 0 < (Nat.toDigits 10 count).length := Nat.length_toDigits_pos
    rw [Fits, ascii_toString, List.length_map]
    omega
  rw [fits, ← cutNumeral_apart_iff (by decide) (by decide),
    List.nodup_map_iff_inj_on List.nodup_range]
  constructor
  · intro apart first second firstPositive firstLe secondPositive secondLe same
    have equal := apart (first - 1) (List.mem_range.mpr (by omega)) (second - 1)
      (List.mem_range.mpr (by omega)) (by
        rw [Nat.sub_add_cancel firstPositive, Nat.sub_add_cancel secondPositive]
        exact connName_eq_iff.mpr same)
    omega
  · intro apart first firstMember second secondMember same
    have firstLt := List.mem_range.mp firstMember
    have secondLt := List.mem_range.mp secondMember
    have equal := apart (first + 1) (second + 1) (by omega) (by omega) (by omega)
      (by omega) (connName_eq_iff.mp same)
    omega

theorem Fits.mono {listenAddr : InetAddress} {count fewer : Nat}
    (fits : Fits listenAddr count) (le : fewer ≤ count) :
    Fits listenAddr fewer := by
  have digits : (Nat.toDigits 10 fewer).length ≤
      (Nat.toDigits 10 count).length := length_toDigits_mono (by decide) le
  rw [Fits, ascii_toString, List.length_map] at fits ⊢
  omega

theorem fits_ipv4 (a b c d : Byte) (port : UInt16) {count : Nat}
    (int : count < 2147483647) : Fits (.ipv4 a b c d port) count := by
  have address := InetAddress.length_toIpPort_ipv4_le a b c d port
  have digits : (ascii (toString count)).length ≤ 10 :=
    length_toString_le (by decide) (Nat.lt_trans int (by decide))
  exact .inr (by omega)

/-- The server with one more link, under the name that its number gives. -/
def grown (http : Bool) (server : TcpServer) : TcpServer :=
  { server with
    connId := server.connId + 1
    name2connection := write server.name2connection
      (server.connName server.connId) (some server.links.length)
    links := server.links ++
      [{ name := server.connName server.connId, state := .kConnected
         context := if http then some server.contexts else none }]
    contexts := if http then server.contexts + 1 else server.contexts }

theorem newConnection_eq (server : TcpServer) :
    server.newConnection =
      if server.name2connection (server.connName server.connId) = none then
        .ok (server.grown false)
      else .error .newConnectionInsert := by
  simp only [newConnection, assertThat_bind]
  rfl

theorem modify_last (links : List ServedLink) (link : ServedLink)
    (change : ServedLink → ServedLink) :
    (links ++ [link]).modify links.length change = links ++ [change link] := by
  induction links with
  | nil => rfl
  | cons first links induction => simp [induction]

theorem attach_grown (server : TcpServer) :
    (server.grown false).attach server.links.length = server.grown true := by
  have last : (server.grown false).links[server.links.length]? =
      some { name := server.connName server.connId, state := .kConnected
             context := none } := by
    simp [grown]
  simp only [attach, last, if_true]
  simp [grown, updateLink, modify_last]

theorem httpNewConnection_eq (server : TcpServer) :
    server.httpNewConnection =
      if server.name2connection (server.connName server.connId) = none then
        .ok (server.grown true)
      else .error .newConnectionInsert := by
  by_cases free : server.name2connection (server.connName server.connId) = none
  · have found : (server.grown false).name2connection
        ((server.grown false).connName ((server.grown false).connId - 1)) =
          some server.links.length := write_same
    simp only [httpNewConnection, newConnection_eq, if_pos free, ok_bind, found,
      attach_grown]
    rfl
  · simp only [httpNewConnection, newConnection_eq, if_neg free]
    rfl

theorem step_newConnection (http : Bool) (server : TcpServer) :
    server.step http .newConnection =
      if server.name2connection (server.connName server.connId) = none then
        .ok (server.grown http)
      else .error .newConnectionInsert := by
  cases http with
  | true => exact httpNewConnection_eq server
  | false => exact newConnection_eq server

/-- What holds of a server whether or not its links have different names. -/
structure Counted (http : Bool) (server : TcpServer) : Prop where
  connId_eq : server.connId = server.links.length + 1
  contexts_eq : server.contexts = if http then server.links.length else 0
  names_eq : server.links.map ServedLink.name =
    (List.range server.links.length).map fun conn => server.connName (conn + 1)
  context_eq : ∀ conn (link : ServedLink), server.links[conn]? = some link →
    link.context = if http then some conn else none

theorem Counted.new (http : Bool) (name : List Byte) (listenAddr : InetAddress) :
    Counted http (.new name listenAddr) where
  connId_eq := rfl
  contexts_eq := by cases http <;> rfl
  names_eq := rfl
  context_eq := by
    intro conn link found
    cases found

variable {http : Bool} {server : TcpServer}

theorem length_grown :
    (server.grown http).links.length = server.links.length + 1 := by
  simp [TcpServer.grown]

theorem grown_last : (server.grown http).links[server.links.length]? =
    some { name := server.connName server.connId, state := .kConnected
           context := if http then some server.contexts else none } := by
  simp [TcpServer.grown]

theorem grown_before {conn : Nat} (before : conn < server.links.length) :
    (server.grown http).links[conn]? = server.links[conn]? := by
  simp [TcpServer.grown, List.getElem?_append_left before]

theorem grown_cases {conn : Nat} {link : ServedLink}
    (found : (server.grown http).links[conn]? = some link) :
    server.links[conn]? = some link ∨
      (conn = server.links.length ∧
        link.name = server.connName server.connId ∧
        link.context = if http then some server.contexts else none) := by
  rcases Nat.lt_trichotomy conn server.links.length with old | rfl | beyond
  · exact .inl ((grown_before old).symm.trans found)
  · obtain rfl := Option.some.inj (found.symm.trans grown_last)
    exact .inr ⟨rfl, rfl, rfl⟩
  · rw [List.getElem?_eq_none (by rw [length_grown]; omega)] at found
    cases found

theorem Counted.grown (counted : Counted http server) :
    Counted http (server.grown http) where
  connId_eq := by
    simp [TcpServer.grown, counted.connId_eq]
  contexts_eq := by
    have contexts := counted.contexts_eq
    cases http with
    | true => simpa [TcpServer.grown] using contexts
    | false => simpa [TcpServer.grown] using contexts
  names_eq := by
    have names := counted.names_eq
    have same : ∀ number, (server.grown http).connName number =
        server.connName number := fun _ => rfl
    simp only [same]
    simp [TcpServer.grown, names, List.range_succ, counted.connId_eq]
  context_eq := by
    intro conn link found
    rcases grown_cases found with before | ⟨rfl, _, context⟩
    · exact counted.context_eq conn link before
    · rw [context, counted.contexts_eq]
      cases http with
      | true => rfl
      | false => rfl

theorem getElem?_updateLink (conn other : Nat) (change : ServedLink → ServedLink) :
    (server.updateLink conn change).links[other]? =
      if conn = other then server.links[other]?.map change
      else server.links[other]? := by
  rw [updateLink, List.getElem?_modify]
  split
  · rfl
  · simp

theorem names_updateLink (conn : Nat) {change : ServedLink → ServedLink}
    (same : ∀ link, (change link).name = link.name) :
    (server.updateLink conn change).links.map ServedLink.name =
      server.links.map ServedLink.name := by
  apply List.ext_getElem?
  intro other
  rw [List.getElem?_map, List.getElem?_map, getElem?_updateLink]
  split
  · rw [Option.map_map]
    have names : ServedLink.name ∘ change = ServedLink.name := funext same
    rw [names]
  · rfl

theorem names_setState (conn : Nat) (state : StateE) :
    (server.setState conn state).links.map ServedLink.name =
      server.links.map ServedLink.name :=
  names_updateLink conn fun _ => rfl

theorem Counted.updateLink (counted : Counted http server) (conn : Nat)
    {change : ServedLink → ServedLink}
    (name : ∀ link, (change link).name = link.name)
    (context : ∀ link, (change link).context = link.context) :
    Counted http (server.updateLink conn change) := by
  have length : (server.updateLink conn change).links.length =
      server.links.length := List.length_modify ..
  constructor
  · rw [length]
    exact counted.connId_eq
  · rw [length]
    exact counted.contexts_eq
  · rw [names_updateLink conn name, length]
    exact counted.names_eq
  · intro other link found
    rw [getElem?_updateLink] at found
    split at found
    · obtain ⟨old, before, rfl⟩ := Option.map_eq_some_iff.mp found
      rw [context]
      exact counted.context_eq other old before
    · exact counted.context_eq other link found

theorem names_grown : (server.grown http).links.map ServedLink.name =
    server.links.map ServedLink.name ++ [server.connName server.connId] := by
  simp [TcpServer.grown]

theorem Counted.names_distinct (counted : Counted http server)
    (fits : Fits server.listenAddr (server.links.length + 1)) :
    ((server.grown http).links.map ServedLink.name).Nodup := by
  rw [counted.grown.names_eq, length_grown]
  exact names_apart_iff.mpr fits

theorem Counted.unused (counted : Counted http server)
    (fits : Fits server.listenAddr (server.links.length + 1)) {conn : Nat}
    {link : ServedLink} (found : server.links[conn]? = some link) :
    link.name ≠ server.connName server.connId := by
  intro same
  have distinct := counted.names_distinct fits
  rw [names_grown] at distinct
  obtain ⟨_, _, apart⟩ := List.nodup_append.mp distinct
  exact apart link.name (List.mem_map_of_mem (List.mem_of_getElem? found)) _
    (List.mem_singleton.mpr rfl) same

theorem Named.free (named : Named http server) (counted : Counted http server)
    (fits : Fits server.listenAddr (server.links.length + 1)) :
    server.name2connection (server.connName server.connId) = none := by
  cases entry : server.name2connection (server.connName server.connId) with
  | none => rfl
  | some conn =>
      obtain ⟨link, found, same, _⟩ := (named.mapped _ conn).mp entry
      exact (counted.unused fits found same).elim

/-- The map and the contexts go on as they should. -/
theorem Named.grown (named : Named http server) (counted : Counted http server)
    (fits : Fits server.listenAddr (server.links.length + 1)) :
    Named http (server.grown http) := by
  refine ⟨counted.names_distinct fits, ?_, counted.grown.context_eq⟩
  intro name conn
  by_cases same : name = server.connName server.connId
  · rw [same]
    have entry : (server.grown http).name2connection
        (server.connName server.connId) = some server.links.length := write_same
    rw [entry]
    constructor
    · intro equal
      obtain rfl := Option.some.inj equal
      exact ⟨_, grown_last, rfl, by simp⟩
    · rintro ⟨link, found, sameName, _⟩
      rcases grown_cases found with before | ⟨last, _⟩
      · exact (counted.unused fits before sameName).elim
      · rw [last]
  · have entry : (server.grown http).name2connection name =
        server.name2connection name := write_other same
    rw [entry, named.mapped]
    constructor
    · rintro ⟨link, found, sameName, opened⟩
      obtain ⟨old, _⟩ := List.getElem?_eq_some_iff.mp found
      exact ⟨link, (grown_before old).trans found, sameName, opened⟩
    · rintro ⟨link, found, sameName, opened⟩
      rcases grown_cases found with before | ⟨_, newest, _⟩
      · exact ⟨link, before, sameName, opened⟩
      · exact (same (sameName.symm.trans newest)).elim

theorem Named.shutdown (named : Named http server) {conn : Nat} {link : ServedLink}
    (found : server.links[conn]? = some link) (opened : link.state = .kConnected) :
    Named http (server.setState conn .kDisconnecting) where
  distinct := by
    rw [names_setState]
    exact named.distinct
  mapped := by
    intro name other
    rw [setState, getElem?_updateLink]
    by_cases same : conn = other
    · subst same
      have entry := named.mapped name conn
      rw [if_pos rfl, found]
      rw [found] at entry
      simpa [opened, updateLink] using entry
    · rw [if_neg same]
      exact named.mapped name other
  contexts := by
    intro other after result
    rw [setState, getElem?_updateLink] at result
    split at result
    · obtain ⟨old, before, rfl⟩ := Option.map_eq_some_iff.mp result
      exact named.contexts other old before
    · exact named.contexts other after result

/-- A closed link takes its own entry out of the map, and no other one. -/
theorem Named.handleClose (named : Named http server) {conn : Nat}
    {link : ServedLink} (found : server.links[conn]? = some link)
    (opened : link.state ≠ .kDisconnected) :
    Named http (server.handleClose conn) := by
  have own := (named.mapped link.name conn).mpr ⟨link, found, rfl, opened⟩
  have links : (server.handleClose conn).links =
      (server.setState conn .kDisconnected).links := by
    rw [TcpServer.handleClose, found]
    rfl
  have map : (server.handleClose conn).name2connection =
      write server.name2connection link.name none := by
    rw [TcpServer.handleClose, found]
    rfl
  constructor
  · rw [links, names_setState]
    exact named.distinct
  · intro name other
    rw [map, links, setState, getElem?_updateLink]
    by_cases here : conn = other
    · subst here
      rw [if_pos rfl, found]
      by_cases same : name = link.name
      · rw [same, write_same]
        simp
      · have others := named.mapped name conn
        rw [found] at others
        rw [write_other same, others]
        simp [Ne.symm same]
    · rw [if_neg here]
      by_cases same : name = link.name
      · rw [same, write_same, ← named.mapped, own]
        simpa using here
      · rw [write_other same, named.mapped]
  · intro other after result
    rw [links, setState, getElem?_updateLink] at result
    split at result
    · obtain ⟨old, before, rfl⟩ := Option.map_eq_some_iff.mp result
      exact named.contexts other old before
    · exact named.contexts other after result

theorem Counted.handleClose (counted : Counted http server) (conn : Nat) :
    Counted http (server.handleClose conn) := by
  unfold TcpServer.handleClose
  split
  · have closed : Counted http (server.setState conn .kDisconnected) :=
      counted.updateLink conn (fun _ => rfl) (fun _ => rfl)
    exact ⟨closed.connId_eq, closed.contexts_eq, closed.names_eq,
      closed.context_eq⟩
  · exact counted

theorem handleClose_same (server : TcpServer) (conn : Nat) :
    (server.handleClose conn).listenAddr = server.listenAddr ∧
      (server.handleClose conn).links.length = server.links.length := by
  unfold handleClose
  split
  · exact ⟨rfl, List.length_modify ..⟩
  · exact ⟨rfl, rfl⟩

/-- What every step keeps, and the connections that it adds. -/
theorem Counted.step (counted : Counted http server) {action : TcpServerAction}
    {next : TcpServer} (stepped : server.step http action = .ok next) :
    Counted http next ∧ next.listenAddr = server.listenAddr ∧
      next.links.length = server.links.length + accepted [action] := by
  cases action with
  | newConnection =>
      rw [step_newConnection] at stepped
      split at stepped
      · cases stepped
        exact ⟨counted.grown, rfl, length_grown⟩
      · cases stepped
  | shutdown conn =>
      cases stepped
      exact ⟨counted.updateLink conn (fun _ => rfl) (fun _ => rfl), rfl,
        List.length_modify ..⟩
  | handleClose conn =>
      cases stepped
      obtain ⟨address, length⟩ := handleClose_same server conn
      exact ⟨counted.handleClose conn, address, length⟩

theorem Named.step (named : Named http server) (counted : Counted http server)
    {action : TcpServerAction} (allowed : server.Enabled action)
    (fits : Fits server.listenAddr (server.links.length + accepted [action])) :
    ∃ next, server.step http action = .ok next ∧ Named http next := by
  cases action with
  | newConnection =>
      have free := named.free counted fits
      refine ⟨server.grown http, ?_, named.grown counted fits⟩
      rw [step_newConnection, if_pos free]
  | shutdown conn =>
      obtain ⟨link, found, opened⟩ := allowed
      exact ⟨_, rfl, named.shutdown found opened⟩
  | handleClose conn =>
      obtain ⟨link, found, opened⟩ := allowed
      exact ⟨_, rfl, named.handleClose found opened⟩

theorem Named.new (http : Bool) (name : List Byte) (listenAddr : InetAddress) :
    Named http (.new name listenAddr) where
  distinct := .nil
  mapped := by
    intro name conn
    simp [TcpServer.new]
  contexts := by
    intro conn link found
    cases found

/-- What is known of a server after a run, by the connections it has accepted. -/
structure Served (http : Bool) (listenAddr : InetAddress)
    (actions : List TcpServerAction) (server : TcpServer) : Prop where
  counted : Counted http server
  address : server.listenAddr = listenAddr
  length : server.links.length = accepted actions
  named : Fits listenAddr (accepted actions) → Named http server

variable {name : List Byte} {listenAddr : InetAddress}
variable {actions : List TcpServerAction}

theorem accepted_concat (action : TcpServerAction) :
    accepted (actions ++ [action]) = accepted actions + accepted [action] :=
  List.count_append ..

theorem Served.step (served : Served http listenAddr actions server)
    {action : TcpServerAction} (allowed : server.Enabled action) {next : TcpServer}
    (stepped : server.step http action = .ok next) :
    Served http listenAddr (actions ++ [action]) next := by
  obtain ⟨counted, address, length⟩ := served.counted.step stepped
  refine ⟨counted, address.trans served.address, ?_, ?_⟩
  · rw [length, served.length, accepted_concat]
  · intro fits
    rw [accepted_concat] at fits
    have named := served.named (fits.mono (Nat.le_add_right _ _))
    rw [← served.address, ← served.length] at fits
    obtain ⟨other, again, kept⟩ := named.step served.counted allowed fits
    obtain rfl := Except.ok.inj (stepped.symm.trans again)
    exact kept

theorem run_served
    (run : (serverMachine http).Run (.new name listenAddr) actions server) :
    Served http listenAddr actions server := by
  apply run.invariant (Served http listenAddr)
  · exact ⟨.new http name listenAddr, rfl, rfl, fun _ => .new http name listenAddr⟩
  · intro actions server action next _ served allowed stepped
    exact served.step allowed stepped

/-- Whatever comes next passes its asserts if the numbers fit from there on. -/
theorem Served.progress (served : Served http listenAddr actions server)
    {action : TcpServerAction} (allowed : server.Enabled action)
    (fits : Fits listenAddr (accepted (actions ++ [action]))) :
    ∃ next, server.step http action = .ok next ∧ Named http next := by
  rw [accepted_concat] at fits
  have named := served.named (fits.mono (Nat.le_add_right _ _))
  rw [← served.address, ← served.length] at fits
  exact named.step served.counted allowed fits

/-- After every run, whatever comes next passes its asserts and leaves links with
names of their own, a map of exactly the open ones and the contexts where they belong,
if and only if the number of connections accepted by then fits into a name. -/
theorem names_unique_iff
    (run : (serverMachine http).Run (.new name listenAddr) actions server)
    {action : TcpServerAction} (allowed : server.Enabled action) :
    (∃ next, server.step http action = .ok next ∧ Named http next) ↔
      Fits listenAddr (accepted (actions ++ [action])) := by
  have served := run_served run
  constructor
  · rintro ⟨next, stepped, named⟩
    have after := served.step allowed stepped
    have distinct := named.distinct
    rw [after.counted.names_eq, names_apart_iff, after.address, after.length]
      at distinct
    exact distinct
  · exact served.progress allowed

instance decidableEnabled (server : TcpServer) (action : TcpServerAction) :
    Decidable (server.Enabled action) :=
  match action with
  | .newConnection =>
      inferInstanceAs (Decidable (server.links.length + 1 < 2147483647))
  | .shutdown conn => inferInstanceAs
      (Decidable (∃ link ∈ server.links[conn]?, link.state = .kConnected))
  | .handleClose conn => inferInstanceAs
      (Decidable (∃ link ∈ server.links[conn]?, link.state ≠ .kDisconnected))

instance decidableMachine (server : TcpServer) (action : TcpServerAction) :
    Decidable ((serverMachine http).enabled server action) :=
  inferInstanceAs (Decidable (server.Enabled action))

/-- An IPv4 server whose first link is closed before the third one comes. -/
theorem names_unique_iff_ipv4 :
    ∃ server next : TcpServer, (serverMachine true).Run
        (.new (ascii "HttpServer") (.ipv4 192 168 100 200 65535))
        [.newConnection, .newConnection, .handleClose 0] server ∧
      server.step true .newConnection = .ok next ∧ Named true next := by
  have found : ((serverMachine true).execute
      (.new (ascii "HttpServer") (.ipv4 192 168 100 200 65535))
      [.newConnection, .newConnection, .handleClose 0]).any
      (fun server => (serverMachine true).enabled server .newConnection) =
        true := by
    decide +kernel
  obtain ⟨server, run, accepts⟩ := Machine.run_of_execute found
  have allowed : server.Enabled .newConnection := of_decide_eq_true accepts
  obtain ⟨next, stepped, named⟩ := (names_unique_iff run allowed).mpr (by
    right
    decide +kernel)
  exact ⟨server, next, run, stepped, named⟩

/-- With a long IPv6 address the second link gets the name of the first. -/
theorem names_collide :
    ∃ server : TcpServer, (serverMachine false).Run
        (.new (ascii "EchoServer") (.ipv6
          #v[0x2001, 0xdb8, 0x1111, 0x2222, 0x3333, 0x4444, 0x5555, 0x6666]
          12345))
        [.newConnection] server ∧
      server.Enabled .newConnection ∧
      server.connName 2 = server.connName 1 ∧
      ¬ ∃ next, server.step false .newConnection = .ok next := by
  have found : ((serverMachine false).execute
      (.new (ascii "EchoServer") (.ipv6
        #v[0x2001, 0xdb8, 0x1111, 0x2222, 0x3333, 0x4444, 0x5555, 0x6666]
        12345)) [.newConnection]).any
      (fun server => (serverMachine false).enabled server .newConnection ∧
        server.connName 2 = server.connName 1 ∧
        (server.step false .newConnection).isOk = false) = true := by
    decide +kernel
  obtain ⟨server, run, reached⟩ := Machine.run_of_execute found
  obtain ⟨allowed, same, fails⟩ := of_decide_eq_true reached
  refine ⟨server, run, allowed, same, ?_⟩
  rintro ⟨next, stepped⟩
  rw [stepped] at fails
  cases fails

/-- On any IPv4 address everything goes well as long as the numbers are an `int`. -/
theorem names_unique_on_ipv4 {a b c d : Byte} {port : UInt16}
    (run : (serverMachine http).Run (.new name (.ipv4 a b c d port)) actions server)
    {action : TcpServerAction} (allowed : server.Enabled action)
    (int : accepted (actions ++ [action]) < 2147483647) :
    ∃ next, server.step http action = .ok next ∧ Named http next :=
  (run_served run).progress allowed (fits_ipv4 a b c d port int)

end TcpServer

end Muduo
