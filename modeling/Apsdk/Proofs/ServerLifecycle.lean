import Apsdk.ApServer

/-! Starts and stops of the server. Names are published only while both services
accept connections, but nothing stops the media service except the start of another one,
and a service whose start was broken off is taken for one that runs. -/

namespace Apsdk.ApServer
open Library Machine

def SetUp.succeeds : SetUp → Bool
  | .bound _ => true
  | .noThread | .noAcceptor => false

namespace NetService

/-- Nothing is published but what `dns_service_` refers to. -/
def Tracked (service : NetService) : Prop := service.registered = service.dnsService.toList

/-- One registration, under a name and with a port. -/
def PublishedAs (service : NetService) (name : Bytes) (port : UInt16) : Prop :=
  ∃ registration, service.registered = [registration] ∧ registration.name = name ∧ registration.port = port

variable {service : NetService}

theorem addTxtRecords_keeps (service : NetService) (records : List (Bytes × Bytes)) :
    (service.addTxtRecords records).dnsService = service.dnsService ∧
      (service.addTxtRecords records).registered = service.registered ∧ (service.addTxtRecords records).type = service.type := by
  induction records generalizing service with
  | nil => exact ⟨rfl, rfl, rfl⟩
  | cons record later ih => exact ih (service.addTxtRecord record)

theorem Tracked.suppress (tracked : service.Tracked) : service.suppress.dnsService = none ∧ service.suppress.registered = [] := by
  rw [Tracked] at tracked
  rw [NetService.suppress]
  cases published : service.dnsService with
  | none =>
    rw [published] at tracked
    exact ⟨published, tracked⟩
  | some registration =>
    rw [published] at tracked
    refine ⟨rfl, ?_⟩
    show service.registered.erase registration = []
    simp [tracked]

theorem Tracked.silent (tracked : service.Tracked) (none : service.dnsService = none) : service.registered = [] := by
  rw [tracked, none]
  rfl

/-- A name that is published where none was. -/
theorem publish_silent (tracked : service.Tracked) (none : service.dnsService = none) (name : Bytes) (port : UInt16) :
    (service.publish true name port).1.Tracked ∧ (service.publish true name port).1.PublishedAs name port := by
  have first : (service.publish true name port).1.registered = [⟨name, service.type, port, service.txtRecords⟩] := by
    show _ :: service.registered = _
    rw [tracked.silent none]
  exact ⟨first, _, first, rfl, rfl⟩

theorem addTxtRecords_tracked (tracked : service.Tracked) (records : List (Bytes × Bytes)) : (service.addTxtRecords records).Tracked := by
  obtain ⟨referred, registered, -⟩ := addTxtRecords_keeps service records
  rw [Tracked, referred, registered]
  exact tracked

end NetService

namespace Implementation
variable {config : ServerConfig}

def mediaRunning (server : Implementation) : Bool := server.apCastingMediaHttpService.any TcpService.running

def mediaAccepts (server : Implementation) : Bool := server.apCastingMediaHttpService.any TcpService.accepts

def airplayRunning (server : Implementation) : Bool := server.airplayTcpService.any TcpService.running

def airplayAccepts (server : Implementation) : Bool := server.airplayTcpService.any TcpService.accepts

/-- Neither service runs and no name is published. -/
structure Idle (server : Implementation) : Prop where
  airplay : server.airplayRunning = false
  media : server.mediaRunning = false
  airplayName : server.airplayNetService.registered = []
  raopName : server.raopNetService.registered = []

/-- The AirPlay service runs and accepts connections, and both names are published with its port if they are to be. -/
def Serving (config : ServerConfig) (server : Implementation) : Prop :=
  ∃ service, server.airplayTcpService = some service ∧ service.accepts = true ∧
    (config.publishService = true → server.airplayNetService.PublishedAs config.name service.port ∧
      server.raopNetService.PublishedAs (raopName config) service.port)

/-- What the last call promises of the server it leaves; one that ends with an exception promises nothing. -/
def Promised (config : ServerConfig) (server : Implementation) : Result → Prop
  | .started true => Serving config server
  | .started false => Idle server
  | .threw => True
  | .stopped => Idle server

/-- A stop finds no media service running. A start that finds an AirPlay service finds it accepting, and
the media service as well if names are to be published; one that finds none does not get both services and then a refusal. -/
def Clears (config : ServerConfig) (server : Implementation) : Call → Prop
  | .stop => server.mediaRunning = false
  | .start resources =>
    (server.airplayTcpService.isSome = true →
      server.airplayAccepts = true ∧ (config.publishService = true → server.mediaAccepts = true)) ∧
    (server.airplayTcpService = none → ¬ (resources.airplayTcp.succeeds = true ∧ resources.mediaHttp.succeeds = true ∧
      config.publishService = true ∧ (resources.airplayName && resources.raopName) = false))

/-- Names are published while both services accept connections, and not otherwise. -/
structure Consistent (config : ServerConfig) (server : Implementation) : Prop where
  airplayTracked : server.airplayNetService.Tracked
  raopTracked : server.raopNetService.Tracked
  unpublished : config.publishService = false ∨ (server.airplayAccepts && server.mediaAccepts) = false →
    server.airplayNetService.dnsService = none ∧ server.raopNetService.dnsService = none
  published : ∀ service, server.airplayTcpService = some service → config.publishService = true →
    (server.airplayAccepts && server.mediaAccepts) = true →
    server.airplayNetService.PublishedAs config.name service.port ∧
      server.raopNetService.PublishedAs (raopName config) service.port

/-- What `initialize_net_service` leaves where no name is published. -/
structure Initialized (config : ServerConfig) (server : Implementation) (resources : Resources) (port : UInt16)
    (after : Implementation) (succeeded : Bool) : Prop where
  airplayTcp : after.airplayTcpService = server.airplayTcpService
  mediaHttp : after.apCastingMediaHttpService = server.apCastingMediaHttpService
  airplayTracked : after.airplayNetService.Tracked
  raopTracked : after.raopNetService.Tracked
  result : succeeded = (!config.publishService || (resources.airplayName && resources.raopName))
  published : succeeded = true → config.publishService = true →
    after.airplayNetService.PublishedAs config.name port ∧ after.raopNetService.PublishedAs (raopName config) port
  silent : succeeded = false ∨ config.publishService = false →
    after.airplayNetService.dnsService = none ∧ after.raopNetService.dnsService = none

theorem initialized {server : Implementation} (airplayTracked : server.airplayNetService.Tracked)
    (raopTracked : server.raopNetService.Tracked)
    (silent : server.airplayNetService.dnsService = none ∧ server.raopNetService.dnsService = none) (resources : Resources)
    (port : UInt16) :
    Initialized config server resources port (initializeNetService config server resources port).1
      (initializeNetService config server resources port).2 := by
  rw [initializeNetService]
  cases publishes : config.publishService with
  | false =>
    rw [if_pos Bool.false_ne_true]
    exact ⟨rfl, rfl, airplayTracked, raopTracked, by rw [publishes]; rfl, fun _ on => absurd (publishes.symm.trans on) Bool.false_ne_true,
      fun _ => silent⟩
  | true =>
    rw [if_neg (not_not.mpr rfl)]
    have noAirplay := (NetService.addTxtRecords_keeps server.airplayNetService (airplayTxtRecords config)).1.trans silent.1
    have noRaop := (NetService.addTxtRecords_keeps server.raopNetService (raopTxtRecords config)).1.trans silent.2
    have airplayKept := NetService.addTxtRecords_tracked airplayTracked (airplayTxtRecords config)
    have raopKept := NetService.addTxtRecords_tracked raopTracked (raopTxtRecords config)
    generalize server.airplayNetService.addTxtRecords (airplayTxtRecords config) = airplay at noAirplay airplayKept ⊢
    generalize server.raopNetService.addTxtRecords (raopTxtRecords config) = raop at noRaop raopKept ⊢
    obtain ⟨airplayNew, airplayPublished⟩ := NetService.publish_silent airplayKept noAirplay config.name port
    obtain ⟨raopNew, raopPublished⟩ := NetService.publish_silent raopKept noRaop (raopName config) port
    cases first : resources.airplayName with
    | false =>
      exact ⟨rfl, rfl, airplayKept, raopKept, by rw [publishes, first]; rfl, nofun, fun _ => ⟨noAirplay, noRaop⟩⟩
    | true =>
      cases second : resources.raopName with
      | false =>
        have gone := airplayNew.suppress
        exact ⟨rfl, rfl, gone.2.trans (congrArg Option.toList gone.1.symm), raopKept,
          by rw [publishes, first, second]; rfl, nofun, fun _ => ⟨gone.1, noRaop⟩⟩
      | true =>
        refine ⟨rfl, rfl, airplayNew, raopNew, by rw [publishes, first, second]; rfl, fun _ _ => ⟨airplayPublished, raopPublished⟩, ?_⟩
        intro unpublished
        rcases unpublished with failed | off
        · cases failed
        · cases publishes.symm.trans off

theorem Consistent.new (config : ServerConfig) (store : MediaDataStore.Store) : Consistent config (new store) :=
  ⟨rfl, rfl, fun _ => ⟨rfl, rfl⟩, fun _ impossible => nomatch impossible⟩

/-- Where the services do not both accept connections, no name is published. -/
theorem Consistent.silent {server : Implementation} (consistent : Consistent config server)
    (part : (server.airplayAccepts && server.mediaAccepts) = false) :
    server.airplayNetService.registered = [] ∧ server.raopNetService.registered = [] := by
  obtain ⟨noAirplay, noRaop⟩ := consistent.unpublished (.inr part)
  exact ⟨consistent.airplayTracked.silent noAirplay, consistent.raopTracked.silent noRaop⟩

theorem airplayAccepts_of_none {server : Implementation} (gone : server.airplayTcpService = none) :
    (server.airplayAccepts && server.mediaAccepts) = false := by
  rw [airplayAccepts, gone]
  rfl

/-- Without an AirPlay service, only the media service may be left. -/
theorem Consistent.idle_iff {server : Implementation} (consistent : Consistent config server) (gone : server.airplayTcpService = none) :
    Idle server ↔ server.mediaRunning = false := by
  obtain ⟨noAirplay, noRaop⟩ := consistent.silent (airplayAccepts_of_none gone)
  refine ⟨Idle.media, fun stopped => ⟨?_, stopped, noAirplay, noRaop⟩⟩
  rw [airplayRunning, gone]
  rfl

/-- A server with an AirPlay service serves unless an exception broke off the start of a service. -/
theorem Consistent.serving_iff {server : Implementation} (consistent : Consistent config server) {service : TcpService}
    (present : server.airplayTcpService = some service) :
    Serving config server ↔
      server.airplayAccepts = true ∧ (config.publishService = true → server.mediaAccepts = true) := by
  have same : server.airplayAccepts = service.accepts := by
    rw [airplayAccepts, present]
    rfl
  constructor
  · rintro ⟨other, found, accepts, names⟩
    obtain rfl : service = other := Option.some.inj (present.symm.trans found)
    refine ⟨same.trans accepts, fun publishes => ?_⟩
    by_contra missing
    obtain ⟨⟨_, registered, -⟩, -⟩ := names publishes
    have part : (server.airplayAccepts && server.mediaAccepts) = false := by
      rw [Bool.eq_false_iff.mpr missing, Bool.and_false]
    rw [(consistent.silent part).1] at registered
    cases registered
  · rintro ⟨accepts, media⟩
    exact ⟨service, present, same.symm.trans accepts, fun publishes =>
      consistent.published service present publishes (by rw [accepts, media publishes]; rfl)⟩

/-- What is left where the names have not been touched, and an exception has broken off one of the services. -/
theorem Consistent.broken {server after : Implementation} (consistent : Consistent config server)
    (gone : server.airplayTcpService = none) (airplaySame : after.airplayNetService = server.airplayNetService)
    (raopSame : after.raopNetService = server.raopNetService)
    (part : (after.airplayAccepts && after.mediaAccepts) = false) : Consistent config after := by
  obtain ⟨noAirplay, noRaop⟩ := consistent.unpublished (.inr (airplayAccepts_of_none gone))
  refine ⟨airplaySame ▸ consistent.airplayTracked, raopSame ▸ consistent.raopTracked, fun _ => ?_, fun _ _ _ whole => ?_⟩
  · rw [airplaySame, raopSame]
    exact ⟨noAirplay, noRaop⟩
  · exact absurd (part.symm.trans whole) Bool.false_ne_true

section Start
variable {server : Implementation} {resources : Resources} {port port' : UInt16}

/-- Both services have been started. -/
def opened (server : Implementation) (port port' : UInt16) : Implementation :=
  { server with
    airplayTcpService := some ⟨port, .accepting⟩
    apCastingMediaHttpService := some ⟨port', .accepting⟩
    store := server.store.setStoreRoot port' }

theorem start_airplay_broken (gone : server.airplayTcpService = none) (failed : resources.airplayTcp.succeeds = false) :
    ∃ service, service.accepts = false ∧
      server.start config resources = ({ server with airplayTcpService := some service }, none) := by
  rw [start, gone]
  dsimp only
  cases setUp : resources.airplayTcp with
  | noThread => exact ⟨_, rfl, rfl⟩
  | noAcceptor => exact ⟨_, rfl, rfl⟩
  | bound port =>
    rw [setUp] at failed
    cases failed

theorem start_media_broken (gone : server.airplayTcpService = none) (bound : resources.airplayTcp = .bound port)
    (failed : resources.mediaHttp.succeeds = false) :
    ∃ service, service.accepts = false ∧
      server.start config resources =
        ({ server with airplayTcpService := some ⟨port, .accepting⟩, apCastingMediaHttpService := some service }, none) := by
  rw [start, gone]
  dsimp only
  rw [bound]
  cases setUp : resources.mediaHttp with
  | noThread =>
    refine ⟨.new 0, rfl, ?_⟩
    simp only [TcpService.start, startMediaService, setUp]
  | noAcceptor =>
    refine ⟨⟨0, .threaded⟩, rfl, ?_⟩
    simp only [TcpService.start, startMediaService, setUp, TcpService.new]
  | bound port =>
    rw [setUp] at failed
    cases failed

/-- Once both services have been started, all depends on the names. -/
theorem start_opened (gone : server.airplayTcpService = none) (bound : resources.airplayTcp = .bound port)
    (bound' : resources.mediaHttp = .bound port') :
    server.start config resources =
      if (initializeNetService config (server.opened port port') resources port).2 = true then
        ((initializeNetService config (server.opened port port') resources port).1, some true)
      else
        ({ (initializeNetService config (server.opened port port') resources port).1 with airplayTcpService := none }, some false) := by
  rw [start, gone]
  dsimp only
  rw [bound]
  simp only [TcpService.start, startMediaService, bound']
  rfl

theorem start_opened_spec (consistent : Consistent config server) (gone : server.airplayTcpService = none)
    (bound : resources.airplayTcp = .bound port) (bound' : resources.mediaHttp = .bound port') :
    Consistent config (server.start config resources).1 ∧
      (Promised config (server.start config resources).1 (.ofStart (server.start config resources).2) ↔
        ¬ (config.publishService = true ∧ (resources.airplayName && resources.raopName) = false)) := by
  rw [start_opened gone bound bound']
  have names := @initialized config (server.opened port port') consistent.airplayTracked consistent.raopTracked
    (consistent.unpublished (.inr (airplayAccepts_of_none gone))) resources port
  generalize initializeNetService config (server.opened port port') resources port = ended at names ⊢
  have refused : ended.2 = false ↔ config.publishService = true ∧ (resources.airplayName && resources.raopName) = false := by
    rw [names.result, Bool.or_eq_false_iff, Bool.not_eq_false']
  have airplay : ended.1.airplayTcpService = some ⟨port, .accepting⟩ := names.airplayTcp
  have media : ended.1.apCastingMediaHttpService = some ⟨port', .accepting⟩ := names.mediaHttp
  rw [← refused, Bool.not_eq_false]
  cases result : ended.2 with
  | true =>
    rw [if_pos rfl]
    have serving : Serving config ended.1 := ⟨_, airplay, rfl, fun publishes => names.published result publishes⟩
    refine ⟨⟨names.airplayTracked, names.raopTracked, fun unpublished => ?_, fun service present publishes _ => ?_⟩,
      iff_of_true serving rfl⟩
    · rcases unpublished with off | part
      · exact names.silent (.inr off)
      · rw [airplayAccepts, mediaAccepts, airplay, media] at part
        cases part
    · obtain rfl := Option.some.inj (airplay.symm.trans present)
      exact names.published result publishes
  | false =>
    rw [if_neg Bool.false_ne_true]
    refine ⟨⟨names.airplayTracked, names.raopTracked, fun _ => names.silent (.inl result), fun _ impossible => nomatch impossible⟩,
      iff_of_false (fun idle => ?_) Bool.false_ne_true⟩
    have running := idle.media
    rw [mediaRunning, media] at running
    cases running

/-- A start finds an AirPlay service, or it is broken off at one of the services, or all depends on the names. -/
theorem start_spec (consistent : Consistent config server) (resources : Resources) :
    Consistent config (server.start config resources).1 ∧
      (Promised config (server.start config resources).1 (.ofStart (server.start config resources).2) ↔
        Clears config server (.start resources)) := by
  cases present : server.airplayTcpService with
  | some service =>
    have same : server.start config resources = (server, some true) := by rw [start, present]
    rw [same]
    refine ⟨consistent, (consistent.serving_iff present).trans ⟨fun accepts => ⟨fun _ => accepts, fun gone => ?_⟩, fun clears => ?_⟩⟩
    · cases present.symm.trans gone
    · exact clears.1 (by rw [present]; rfl)
  | none =>
    have clears : Clears config server (.start resources) ↔
        ¬ (resources.airplayTcp.succeeds = true ∧ resources.mediaHttp.succeeds = true ∧
          config.publishService = true ∧ (resources.airplayName && resources.raopName) = false) := by
      rw [Clears, present]
      simp only [Option.isSome_none, Bool.false_eq_true, false_implies, true_implies, true_and]
    rw [clears]
    cases setUp : resources.airplayTcp with
    | noThread | noAcceptor =>
      obtain ⟨service, deaf, result⟩ := @start_airplay_broken config _ resources present (by rw [setUp]; rfl)
      rw [result]
      refine ⟨consistent.broken present rfl rfl ?_, iff_of_true trivial fun both => nomatch both.1⟩
      show (service.accepts && _) = false
      rw [deaf, Bool.false_and]
    | bound port =>
      cases setUp' : resources.mediaHttp with
      | noThread | noAcceptor =>
        obtain ⟨service, deaf, result⟩ := @start_media_broken config _ resources port present setUp (by rw [setUp']; rfl)
        rw [result]
        refine ⟨consistent.broken present rfl rfl ?_, iff_of_true trivial fun both => nomatch both.2.1⟩
        show (true && service.accepts) = false
        rw [deaf, Bool.and_false]
      | bound port' =>
        obtain ⟨left, promised⟩ := start_opened_spec consistent present setUp setUp'
        refine ⟨left, promised.trans (not_congr ?_)⟩
        simp only [SetUp.succeeds, true_and]

end Start

/-- A stop releases the names where names are published. -/
theorem stop_spec {server : Implementation} (consistent : Consistent config server) :
    Consistent config (server.stop config) ∧ (Idle (server.stop config) ↔ server.mediaRunning = false) := by
  have left : Consistent config (server.stop config) := by
    rw [stop, releaseNetService]
    cases publishes : config.publishService with
    | true =>
      rw [if_neg (not_not.mpr rfl)]
      have noAirplay := consistent.airplayTracked.suppress
      have noRaop := consistent.raopTracked.suppress
      exact ⟨noAirplay.2.trans (congrArg Option.toList noAirplay.1.symm), noRaop.2.trans (congrArg Option.toList noRaop.1.symm),
        fun _ => ⟨noAirplay.1, noRaop.1⟩, fun _ impossible => nomatch impossible⟩
    | false =>
      rw [if_pos Bool.false_ne_true]
      exact ⟨consistent.airplayTracked, consistent.raopTracked, fun _ => consistent.unpublished (.inl publishes),
        fun _ impossible => nomatch impossible⟩
  have media : (server.stop config).mediaRunning = server.mediaRunning := by
    rw [stop, releaseNetService]
    split_ifs <;> rfl
  exact ⟨left, (left.idle_iff rfl).trans (by rw [media])⟩

end Implementation

/-- The promise of the call that comes last, whatever came before. -/
def Promises (config : ServerConfig) (server : Implementation) (results : List Result) : Prop :=
  ∀ last, results.getLast? = some last → server.Promised config last

theorem consistent_reached {config : ServerConfig} {store : MediaDataStore.Store} {trace : List Call} {server : Implementation}
    {results : List Result} (ran : run (Implementation.step config) (.new store) trace = some (server, results)) :
    server.Consistent config := by
  refine run_invariant (fun server call next results consistent taken => ?_) (.new config store) ran
  cases call with
  | start resources =>
    obtain ⟨rfl, -⟩ := Prod.mk.inj (Option.some.inj taken)
    exact (Implementation.start_spec consistent resources).1
  | stop =>
    obtain ⟨rfl, -⟩ := Prod.mk.inj (Option.some.inj taken)
    exact (Implementation.stop_spec consistent).1

/-- Whatever resources fail, in every run each call keeps its promise just when no media service is left running:
a stop finds none, and a start that fails neither finds one nor starts one. -/
theorem promised_throughout_iff (config : ServerConfig) (store : MediaDataStore.Store) (trace : List Call) :
    Throughout (Implementation.step config) (.new store) trace (fun _ => Promises config) ↔
      Allowed (Implementation.step config) (.new store) trace fun _ => Implementation.Clears config := by
  have enabled : ∀ server call, (Implementation.step config server call).isSome = true := by
    intro server call
    cases call <;> rfl
  obtain ⟨final, results, ran⟩ := run_enabled enabled (.new store) trace
  refine throughout_iff_allowed ran (fun last impossible => nomatch impossible) ?_
  intro earlier server sent call next results reached promised taken
  have consistent := consistent_reached reached
  have lastOnly : ∀ result, Promises config next (sent ++ [result]) ↔ next.Promised config result := by
    intro result
    simp [Promises]
  cases call with
  | start resources =>
    obtain ⟨rfl, rfl⟩ := Prod.mk.inj (Option.some.inj taken)
    exact (lastOnly _).trans (Implementation.start_spec consistent resources).2
  | stop =>
    obtain ⟨rfl, rfl⟩ := Prod.mk.inj (Option.some.inj taken)
    exact (lastOnly _).trans (Implementation.stop_spec consistent).2

/-- The default configuration. -/
def displayConfig : ServerConfig where
  name := ascii "APS Display"
  model := ascii "AppleTV3,2"
  serverVersion := ascii "220.68"
  macAddress := ascii "00:11:22:33:44:55"
  pi := ascii "b08f5a79-db29-4384-b456-a4784d9e6055"
  pk := ascii "99FD4299889422515FBD27949E4E1E21B2AF50A454499E3D4BE75A4E0F55FE63"
  vv := 2
  features := 0x527FFFF7
  statusFlag := 68
  displayHeight := 1080
  displayWidth := 1920
  displayRefreshRate := 60
  displayUuid := ascii "e5f7a68d-7b0f-4305-984b-974f677a150b"
  publishService := true
  flags := ascii "0x04"
  audioCodecs := ascii "0,1,2,3"
  encryptionTypes := ascii "0,3,5"
  metadataTypes := ascii "0,1,2"
  transmissionProtocol := ascii "UDP"

example : displayConfig.featuresHexString = ascii "0x527FFFF7" := by decide +kernel

/-- The media service outlives a stop of a server of which everything could be started. -/
theorem stop_leaves_media_service :
    ¬ Throughout (Implementation.step displayConfig) (.new (.new 0)) [.start ⟨.bound 7000, .bound 7100, true, true⟩, .stop]
      (fun _ => Promises displayConfig) := by
  intro throughout
  let server := (Implementation.new (.new 0)).start displayConfig ⟨.bound 7000, .bound 7100, true, true⟩
  have ran : run (Implementation.step displayConfig) (.new (.new 0)) [.start ⟨.bound 7000, .bound 7100, true, true⟩, .stop] =
      some (server.1.stop displayConfig, [.ofStart server.2, .stopped]) := rfl
  have idle := throughout _ (List.prefix_refl _) _ _ ran .stopped rfl
  cases idle.media

end Apsdk.ApServer
