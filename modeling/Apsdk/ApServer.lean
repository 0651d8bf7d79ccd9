import Apsdk.AirplayConnection
import Apsdk.Library.Machine

/-! `ap_server`: the TCP services of a receiver and the names under which it is
published. Each of them may fail to start; where a service does, an exception leaves
`start` and everything as it was at that moment. -/

namespace Apsdk.ApServer
open Library

/-- The properties of `ap_config` that the server reads. -/
structure ServerConfig extends Airplay.Config where
  publishService : Bool
  flags : Bytes
  audioCodecs : Bytes
  encryptionTypes : Bytes
  metadataTypes : Bytes
  transmissionProtocol : Bytes

def hexUppercase (value : Nat) : Bytes := (Nat.toDigits 16 value).map fun digit => UInt8.ofNat digit.toUpper.toNat

def ServerConfig.featuresHexString (config : ServerConfig) : Bytes :=
  let low := config.features.toNat % 2 ^ 32
  let high := config.features.toNat / 2 ^ 32
  ascii "0x" ++ hexUppercase low ++ if high = 0 then [] else ascii ",0x" ++ hexUppercase high

/-- What a `tcp_service_base` has set up: its worker thread, and behind that the acceptor. -/
inductive Activity where
  | off
  | threaded
  | accepting
deriving DecidableEq, Repr

/-- A `tcp_service_base`. -/
structure TcpService where
  port : UInt16
  activity : Activity
deriving DecidableEq, Repr

/-- How far `setup` gets: the thread cannot be created, or the acceptor cannot be opened, bound
or made to listen, or it gets a port. -/
inductive SetUp where
  | noThread
  | noAcceptor
  | bound (port : UInt16)
deriving DecidableEq, Repr

namespace TcpService

def new (port : UInt16) : TcpService := ⟨port, .off⟩

/-- `none` is an exception. What is tested for a result of `false` is a thread that has been created. -/
def start (service : TcpService) : SetUp → TcpService × Option Bool
  | .noThread => (service, none)
  | .noAcceptor => ({ service with activity := .threaded }, none)
  | .bound port => (⟨port, .accepting⟩, some true)

/-- Without its thread a service does nothing. -/
def running (service : TcpService) : Bool := service.activity ≠ .off

def accepts (service : TcpService) : Bool := service.activity = .accepting

end TcpService

/-- A name that is published on the network. -/
structure Registration where
  name : Bytes
  type : Bytes
  port : UInt16
  txtRecords : List (Bytes × Bytes)
deriving DecidableEq

structure NetService where
  type : Bytes
  txtRecords : List (Bytes × Bytes)
  /-- What `dns_service_` refers to. -/
  dnsService : Option Registration
  /-- The registrations that have not been released. -/
  registered : List Registration
deriving DecidableEq

namespace NetService

def new (type : Bytes) : NetService := ⟨type, [], none, []⟩

/-- A record takes the place of one with its key. -/
def addTxtRecord (service : NetService) (record : Bytes × Bytes) : NetService :=
  { service with txtRecords := service.txtRecords.filter (fun other => other.1 ≠ record.1) ++ [record] }

def addTxtRecords (service : NetService) (records : List (Bytes × Bytes)) : NetService :=
  records.foldl addTxtRecord service

/-- `DNSServiceRegister` accepts a name or not. -/
def publish (service : NetService) (accepted : Bool) (name : Bytes) (port : UInt16) : NetService × Bool :=
  let registration : Registration := ⟨name, service.type, port, service.txtRecords⟩
  if accepted then
    ({ service with dnsService := some registration, registered := registration :: service.registered }, true)
  else
    (service, false)

def suppress (service : NetService) : NetService :=
  match service.dnsService with
  | none => service
  | some registration => { service with dnsService := none, registered := service.registered.erase registration }

end NetService

/-- `ap_server::implementation`, and the store that all of the process shares. -/
structure Implementation where
  airplayNetService : NetService
  raopNetService : NetService
  airplayTcpService : Option TcpService
  apCastingMediaHttpService : Option TcpService
  store : MediaDataStore.Store

/-- What becomes of the four resources that a start asks for. -/
structure Resources where
  airplayTcp : SetUp
  mediaHttp : SetUp
  airplayName : Bool
  raopName : Bool
deriving DecidableEq, Repr

namespace Implementation
variable (config : ServerConfig)

def new (store : MediaDataStore.Store) : Implementation :=
  ⟨.new (ascii "_airplay._tcp"), .new (ascii "_raop._tcp"), none, none, store⟩

def airplayTxtRecords : List (Bytes × Bytes) :=
  [(ascii "deviceId", config.macAddress),
    (ascii "features", config.featuresHexString),
    (ascii "model", config.model),
    (ascii "srcvers", config.serverVersion),
    (ascii "vv", ascii (toString config.vv)),
    (ascii "pi", config.pi),
    (ascii "pk", config.pk),
    (ascii "flags", config.flags)]

def raopTxtRecords : List (Bytes × Bytes) :=
  [(ascii "am", config.model),
    (ascii "cn", config.audioCodecs),
    (ascii "et", config.encryptionTypes),
    (ascii "ft", config.featuresHexString),
    (ascii "md", config.metadataTypes),
    (ascii "pk", config.pk),
    (ascii "tp", config.transmissionProtocol),
    (ascii "vs", config.serverVersion),
    (ascii "vv", ascii (toString config.vv)),
    (ascii "vn", ascii "65537"),
    (ascii "da", ascii "true"),
    (ascii "sf", ascii "0x04")]

def raopName : Bytes := config.deviceID ++ ascii "@" ++ config.name

/-- The port is the one of the AirPlay service. -/
def initializeNetService (server : Implementation) (resources : Resources) (port : UInt16) : Implementation × Bool :=
  if ¬ config.publishService then (server, true)
  else
    let airplay := server.airplayNetService.addTxtRecords (airplayTxtRecords config)
    let raop := server.raopNetService.addTxtRecords (raopTxtRecords config)
    let (airplay, published) := airplay.publish resources.airplayName config.name port
    if published then
      let (raop, published) := raop.publish resources.raopName (raopName config) port
      if published then
        ({ server with airplayNetService := airplay, raopNetService := raop }, true)
      else
        ({ server with airplayNetService := airplay.suppress, raopNetService := raop }, false)
    else
      ({ server with airplayNetService := airplay, raopNetService := raop }, false)

def releaseNetService (server : Implementation) : Implementation :=
  if ¬ config.publishService then server
  else
    { server with
      airplayNetService := server.airplayNetService.suppress
      raopNetService := server.raopNetService.suppress }

/-- A new media service takes the place of the last one, whose destructor stops it. -/
def startMediaService (server : Implementation) (resources : Resources) : Implementation × Option Unit :=
  let (service, started) := (TcpService.new 0).start resources.mediaHttp
  let server := { server with apCastingMediaHttpService := some service }
  match started with
  | none => (server, none)
  | some false => (server, some ())
  | some true => ({ server with store := server.store.setStoreRoot service.port }, some ())

/-- The pointers are set before the services are started, and an exception leaves them so. -/
def start (server : Implementation) (resources : Resources) : Implementation × Option Bool :=
  match server.airplayTcpService with
  | some _ => (server, some true)
  | none =>
    let (service, started) := (TcpService.new 0).start resources.airplayTcp
    let server := { server with airplayTcpService := some service }
    match started with
    | none => (server, none)
    | some false => ({ server with airplayTcpService := none }, some false)
    | some true =>
      match startMediaService server resources with
      | (server, none) => (server, none)
      | (server, some ()) =>
        let (server, initialized) := initializeNetService config server resources service.port
        if initialized then (server, some true)
        else ({ server with airplayTcpService := none }, some false)

def stop (server : Implementation) : Implementation :=
  { releaseNetService config server with airplayTcpService := none }

end Implementation

inductive Call where
  | start (resources : Resources)
  | stop
deriving DecidableEq, Repr

/-- A start tells whether it succeeded, unless it ends with an exception. -/
inductive Result where
  | started (succeeded : Bool)
  | threw
  | stopped
deriving DecidableEq, Repr

def Result.ofStart : Option Bool → Result
  | none => .threw
  | some succeeded => .started succeeded

def Implementation.step (config : ServerConfig) : Machine Implementation Call Result := fun server call =>
  match call with
  | .start resources =>
    let (server, outcome) := server.start config resources
    some (server, [.ofStart outcome])
  | .stop => some (server.stop config, [.stopped])

end Apsdk.ApServer
