import Apsdk.Proofs.CastPlayback
import Apsdk.Proofs.LockStep

/-! The conversations of the two servers of requests: the AirPlay connection, and the service from which
the player fetches the playlists. -/

namespace Apsdk
open Library

theorem content_le_serialize (res : Response) : res.content.length ≤ res.serialize.length := by
  simp only [Response.serialize, Message.serialize, List.length_append]
  omega

namespace Airplay
open RequestRouteTable

variable {prims : Primitives} {asks : List Ask}

/-- A registered version that may stand in a status line, and a request that is not for the reversal of its connection. -/
structure Ordinary (ask : Ask) : Prop where
  registered : Registered ask.head.version
  noBlank : 32 ∉ ask.head.version
  forward : queryHandler routeTable (.new ask.head.version ask.head.method ask.head.uri) ≠ .ok .postReverse

theorem Ordinary.responds {ask : Ask} (ordinary : Ordinary ask) {request : Request} {surroundings : Surroundings}
    {world next : World prims} {posted : Option Response}
    (called : (server prims).respond surroundings (requestOf ask.head request ask.body) world = some (next, posted)) :
    ∃ res, posted = some res ∧ res.Readable ∧ Answers ask.head res := by
  simp only [server] at called
  split at called
  next posted' value =>
    split_ifs at called with short
    obtain ⟨rfl, rfl⟩ := Prod.mk.inj (Option.some.inj called)
    have plain := requestOf_plain ask.head request ask.body
    have outcome := processRequest_posts surroundings.env surroundings.date plain _ posted' value
    obtain ⟨composed, sendable, rfl⟩ := outcome.answered ordinary.registered
    have counted := of_decide_eq_true short
    have completed := (sendable.weaken fieldNames_reserved).addCommonHeader surroundings.configured surroundings.date plain
    have writable := completed.writable (ordinary.registered.begins ask.head.text ordinary.noBlank)
      ask.head.text.lineEnd_not_mem (lt_of_le_of_lt (content_le_serialize _) (lt_trans counted (by decide)))
    exact ⟨_, rfl, ⟨writable, completed.length, counted⟩, sendable.answers rfl surroundings.env surroundings.date⟩
  next => cases called

theorem server_prompt (ordinary : ∀ ask ∈ asks, Ordinary ask) : (server prims).Prompt asks where
  forward := by
    intro ask member request
    have same : queryHandler routeTable (requestOf ask.head request ask.body) =
        queryHandler routeTable (.new ask.head.version ask.head.method ask.head.uri) := rfl
    simp only [server, same]
    split
    next reversal => exact absurd reversal (ordinary ask member).forward
    next => rfl
  answers := by
    intro ask member request input world next posted called
    obtain ⟨res, some_, readable, -⟩ := (ordinary ask member).responds called
    exact ⟨res, some_, readable⟩

/-- Surroundings in which nothing is found or given. -/
def stillSurroundings : Surroundings := ⟨still, someDate, by decide +kernel⟩

variable {request response : Nat} {world : World prims} {events : List (ExchangeEvent Surroundings)}
  {final : Exchange (World prims)} {answers : List Response}

/-- A client that waits for each response is answered as if its requests were calls, however their bytes are cut and
whenever each side goes on: each is handled once, in order, by a response of its own that the client reads whole. The
conversation goes on until all are answered, as long as the handlers return. -/
theorem conversation_answered (ordinary : ∀ ask ∈ asks, Ordinary ask)
    (ran : Machine.run (server prims).exchange (.start asks request response world) events = some (final, answers)) :
    ∃ done between posts, done <+: asks ∧ (server prims).Handled ⟨.blank request, world⟩ done between posts ∧
      final.world = between.world ∧ List.Forall₂ (fun ask res => Answers ask.head res) done posts ∧
      answers <+: posts.map Response.received ∧ posts.length ≤ answers.length + 1 ∧ events.length ≤ cost asks posts ∧
      ((∀ ask ∈ asks, ∀ request world, ∃ surroundings,
          ((server prims).respond surroundings (requestOf ask.head request ask.body) world).isSome = true) →
        (∀ event, (server prims).exchange final event = none) → done = asks ∧ answers = posts.map Response.received) := by
  have prompt := @server_prompt prims asks ordinary
  obtain ⟨done, between, posts, begun, handled, same, read, nearly, bound, settled⟩ := exchange_handled prompt ran
  have answered : List.Forall₂ (fun ask res => Answers ask.head res) done posts := by
    refine handled.related fun ask member request surroundings world next posted called => ?_
    obtain ⟨res, some_, -, answers⟩ := (ordinary ask (begun.subset member)).responds called
    exact ⟨res, some_, answers⟩
  refine ⟨done, between, posts, begun, handled, same, answered, read, nearly, bound, fun returns ended => ?_⟩
  obtain ⟨free, sent⟩ := exchange_over prompt returns ran ended
  obtain ⟨split, all⟩ := settled free
  rw [sent, List.append_nil] at split
  exact ⟨split.symm, all⟩

/-- The client has sent the head of its request, and the connection has been asked for part of it only. -/
def recordAsk : Ask := ⟨recordHead, [], rfl, by decide +kernel, by decide⟩

theorem recordAsk_ordinary : Ordinary recordAsk := ⟨by decide +kernel, by decide +kernel, by decide +kernel⟩

theorem conversation_answered_record :
    ∃ final answers, Machine.run (server default).exchange (.start [recordAsk] 0 0 (firstSession default).world)
      [.send, .received 9 stillSurroundings, .received 100 stillSurroundings, .wrote 0 20] = some (final, answers) ∧
      ∃ done between posts, done <+: [recordAsk] ∧
        (server default).Handled ⟨.blank 0, (firstSession default).world⟩ done between posts ∧ final.world = between.world ∧
        List.Forall₂ (fun ask res => Answers ask.head res) done posts ∧ answers <+: posts.map Response.received ∧
        posts.length ≤ answers.length + 1 := by
  have returned : (Machine.run (server default).exchange (.start [recordAsk] 0 0 (firstSession default).world)
      [.send, .received 9 stillSurroundings, .received 100 stillSurroundings, .wrote 0 20]).isSome = true := by
    decide +kernel
  obtain ⟨⟨final, answers⟩, ran⟩ := Option.isSome_iff_exists.mp returned
  obtain ⟨done, between, posts, begun, handled, same, answered, read, nearly, -⟩ :=
    conversation_answered (List.forall_mem_singleton.mpr recordAsk_ordinary) ran
  exact ⟨final, answers, ran, done, between, posts, begun, handled, same, answered, read, nearly⟩

end Airplay

namespace MediaHttp
open MediaDataStore Airplay

variable {store : Store} {asks : List Ask}

/-- A request for a playlist that the store has. The response to it, which repeats its version, is short enough to be read. -/
structure Fetch (store : Store) (ask : Ask) : Prop where
  version : HttpVersion ask.head.version
  brief : ask.head.version.length < 2 ^ 29
  method : ask.head.method = ascii "GET"
  stored : ∃ body, store.mediaData.find? ask.head.uri = some body ∧ body ≠ [] ∧ body.length < 2 ^ 30

/-- The lines of a response around its version and its playlist are few. -/
theorem playlistResponse_counted {version body : Bytes} (brief : version.length < 2 ^ 29) (fits : body.length < 2 ^ 30) :
    (playlistResponse version body someDate).Counted := by
  have digits := @decimal_length_le body.length 9 (by omega)
  have headers : ((playlistResponse [] [] someDate).headers.entries.flatMap fun header =>
      Message.serializeHeader header.1 header.2).length ≤ 256 := by decide +kernel
  have status : (printInt ok).length + (playlistResponse [] [] someDate).statusText.length ≤ 256 := by decide +kernel
  have type : (Message.serializeHeader HEADER_CONTENT_TYPE APPLICATION_MPEGURL).length ≤ 256 := by decide +kernel
  have name : HEADER_CONTENT_LENGTH.length = 14 := by decide +kernel
  have whole : (playlistResponse version body someDate).serialize =
      version ++ CHAR_BLANK ++ printInt ok ++ CHAR_BLANK ++ (playlistResponse [] [] someDate).statusText ++ RN_LINE_BREAK ++
        (((playlistResponse [] [] someDate).headers.entries.flatMap fun header => Message.serializeHeader header.1 header.2) ++
          Message.serializeHeader HEADER_CONTENT_LENGTH (decimal body.length) ++
          Message.serializeHeader HEADER_CONTENT_TYPE APPLICATION_MPEGURL ++ RN_LINE_BREAK ++ body) := rfl
  rw [Response.Counted, whole]
  simp only [List.length_append, Message.serializeHeader, name, CHAR_BLANK, CHAR_COLON, RN_LINE_BREAK, List.length_cons,
    List.length_nil] at headers type ⊢
  omega

theorem Fetch.stored_response {ask : Ask} (fetch : Fetch store ask) (request : Request) :
    ∃ body, store.mediaData.find? ask.head.uri = some body ∧ body.length < 2 ^ 30 ∧ ∀ date,
      processRequest store date (requestOf ask.head request ask.body) = some (playlistResponse ask.head.version body date) := by
  obtain ⟨body, found, filled, fits⟩ := fetch.stored
  exact ⟨body, found, fits, fun date => processRequest_stored found filled date
    (show HttpVersion (requestOf ask.head request ask.body).schemeVersion from fetch.version) fetch.method rfl⟩

theorem Fetch.responds {ask : Ask} (fetch : Fetch store ask) {request : Request} {date : DateText} {world next : Unit}
    {posted : Option Response}
    (called : (server store).respond date (requestOf ask.head request ask.body) world = some (next, posted)) :
    ∃ res, posted = some res ∧ res.Readable ∧ res.statusCode = ok ∧ store.mediaData.find? ask.head.uri = some res.content := by
  obtain ⟨body, found, fits, answered⟩ := fetch.stored_response request
  simp only [server, answered] at called
  split_ifs at called with short
  obtain ⟨-, rfl⟩ := Prod.mk.inj (Option.some.inj called)
  obtain ⟨writable, length⟩ := playlistResponse_writable fetch.version (lt_trans fits (by decide)) date
  exact ⟨_, rfl, ⟨writable, length, of_decide_eq_true short⟩, rfl, found⟩

theorem Fetch.returns {ask : Ask} (fetch : Fetch store ask) (request : Request) (world : Unit) :
    ((server store).respond someDate (requestOf ask.head request ask.body) world).isSome = true := by
  obtain ⟨body, found, fits, answered⟩ := fetch.stored_response request
  simp only [server, answered, Option.all_some, playlistResponse_counted fetch.brief fits, decide_true, if_true,
    Option.isSome_some]

theorem server_prompt (fetches : ∀ ask ∈ asks, Fetch store ask) : (server store).Prompt asks where
  forward := fun _ _ _ => rfl
  answers := by
    intro ask member request date world next posted called
    obtain ⟨res, some_, readable, -⟩ := (fetches ask member).responds called
    exact ⟨res, some_, readable⟩

variable {request response : Nat} {events : List (ExchangeEvent DateText)} {final : Exchange Unit} {answers : List Response}

/-- A player that waits for each response gets the playlists of the store that it asks for, each whole and in order,
however the bytes are cut; and the conversation goes on until it has them all. -/
theorem playlists_fetched (fetches : ∀ ask ∈ asks, Fetch store ask)
    (ran : Machine.run (server store).exchange (.start asks request response ()) events = some (final, answers)) :
    ∃ posts : List Response,
      List.Forall₂ (fun ask res => res.statusCode = ok ∧ store.mediaData.find? ask.head.uri = some res.content)
        (asks.take posts.length) posts ∧
      answers <+: posts.map Response.received ∧ events.length ≤ cost asks posts ∧
      ((∀ event, (server store).exchange final event = none) →
        posts.length = asks.length ∧ answers = posts.map Response.received) := by
  have prompt := server_prompt fetches
  obtain ⟨done, between, posts, begun, handled, -, read, -, bound, settled⟩ := exchange_handled prompt ran
  have given : List.Forall₂ (fun ask res => res.statusCode = ok ∧ store.mediaData.find? ask.head.uri = some res.content)
      done posts := by
    refine handled.related fun ask member request date world next posted called => ?_
    obtain ⟨res, some_, -, status, content⟩ := (fetches ask (begun.subset member)).responds called
    exact ⟨res, some_, status, content⟩
  have part : asks.take posts.length = done := by
    rw [← given.length_eq]
    exact (List.prefix_iff_eq_take.mp begun).symm
  refine ⟨posts, part ▸ given, read, bound, fun ended => ?_⟩
  have returns : ∀ ask ∈ asks, ∀ request world, ∃ date,
      ((server store).respond date (requestOf ask.head request ask.body) world).isSome = true :=
    fun ask member request world => ⟨someDate, (fetches ask member).returns request world⟩
  obtain ⟨free, sent⟩ := exchange_over prompt returns ran ended
  obtain ⟨split, all⟩ := settled free
  rw [sent, List.append_nil] at split
  exact ⟨by rw [split, given.length_eq], all⟩

def smallStore : Store :=
  { Store.new 1 with mediaData := SortedMap.empty.insert (ascii "/master.m3u8") (ascii "#EXTM3U") }

theorem get_token : IsToken (ascii "GET") := ⟨by decide, by decide +kernel⟩

theorem master_plain : ∀ byte ∈ ascii "/master.m3u8", byte ≠ 32 ∧ Parser.isChar byte = true ∧ Parser.isCtl byte = false := by
  decide +kernel

theorem http_version : HttpVersion (ascii "HTTP/1.1") := ⟨by decide, by decide +kernel, by decide⟩

def fetchMaster : Ask where
  head := ⟨ascii "GET", ascii "/master.m3u8", ascii "HTTP/1.1", [], get_token, master_plain, http_version.text⟩
  body := []
  stated := rfl
  headCounted := by decide +kernel
  bodyCounted := by decide

theorem playlists_fetched_master :
    ∃ final answers, Machine.run (server smallStore).exchange (.start [fetchMaster] 0 0 ())
      [.send, .received 9 someDate, .received 100 someDate, .wrote 0 20] = some (final, answers) ∧
      ∃ posts : List Response, List.Forall₂
          (fun ask res => res.statusCode = ok ∧ smallStore.mediaData.find? ask.head.uri = some res.content)
          ([fetchMaster].take posts.length) posts ∧
        answers <+: posts.map Response.received := by
  have returned : (Machine.run (server smallStore).exchange (.start [fetchMaster] 0 0 ())
      [.send, .received 9 someDate, .received 100 someDate, .wrote 0 20]).isSome = true := by
    decide +kernel
  obtain ⟨⟨final, answers⟩, ran⟩ := Option.isSome_iff_exists.mp returned
  have fetch : Fetch smallStore fetchMaster := ⟨http_version, by decide, rfl, ascii "#EXTM3U", rfl, List.cons_ne_nil _ _, by decide⟩
  obtain ⟨posts, given, read, -⟩ := playlists_fetched (List.forall_mem_singleton.mpr fetch) ran
  exact ⟨final, answers, ran, posts, given, read⟩

end MediaHttp
end Apsdk
