import KepServerLogger.Proofs.Silence

/-!
# Starting a subscription

Whatever the server answers, node by node, `start` has asked for each node
once, in the order of the dictionary and in requests that are not too large.
It has warned about the nodes that were rejected, and gives up only if all
were. From then on what is notified goes out under the key that the node was
given with.
-/

namespace KepServerLogger.Lib

open KepServerLogger.Py

/-- The node was rejected. -/
def Handle.isStatus : Handle → Bool
  | .item _ => false
  | .status _ => true

namespace SubscriptionServer

/-- Each request is answered with one handle for each of its nodes. -/
def Answers (server : SubscriptionServer) : Prop :=
  ∀ past request, ∃ handles, server.subscribe (past ++ [request]) = .ok handles ∧
    handles.length = request.nodes.length

/-- The answer to one request after others, node by node. -/
def answer (server : SubscriptionServer) (past : List SubscribeRequest)
    (request : SubscribeRequest) : List (String × Handle) :=
  match server.subscribe (past ++ [request]) with
  | .ok handles => request.nodes.zip handles
  | .error _ => []

/-- The answers to requests that follow others. -/
def answers (server : SubscriptionServer) :
    List SubscribeRequest → List SubscribeRequest → List (String × Handle)
  | _, [] => []
  | past, request :: rest => server.answer past request ++ server.answers (past ++ [request]) rest

variable {server : SubscriptionServer}

theorem answer_of_ok {past : List SubscribeRequest} {request : SubscribeRequest}
    {handles : List Handle} (h : server.subscribe (past ++ [request]) = .ok handles) :
    server.answer past request = request.nodes.zip handles := by
  unfold answer
  rw [h]

theorem nodes_answers (h : server.Answers) (past requests : List SubscribeRequest) :
    (server.answers past requests).map Prod.fst = (requests.map (·.nodes)).flatten := by
  induction requests generalizing past with
  | nil => rfl
  | cons request rest ih =>
      obtain ⟨handles, hok, hlength⟩ := h past request
      rw [answers, List.map_append, ih, answer_of_ok hok, List.map_fst_zip hlength.ge,
        List.map_cons, List.flatten_cons]

end SubscriptionServer

namespace NodeSubscription

variable {server : SubscriptionServer} {s : NodeSubscription} {node : String → String}

/-! ## The nodes -/

theorem resolveNodes_ok {getNode : String → Except Exc String} {l : List (String × String)}
    (h : ∀ p ∈ l, getNode p.2 = .ok (node p.2)) (keys : Dict String String) :
    resolveNodes getNode l keys =
      (keys.setAll (l.map fun p => (node p.2, p.1)), .ok (l.map fun p => node p.2)) := by
  induction l generalizing keys with
  | nil => rfl
  | cons p rest ih =>
      obtain ⟨key, node_id⟩ := p
      obtain ⟨hfirst, hrest⟩ := List.forall_mem_cons.mp h
      dsimp only at hfirst
      rw [resolveNodes, hfirst]
      dsimp only
      rw [ih hrest]
      rfl

/-- A node of its own has its key. -/
theorem get?_setAll_nodes {l : List (String × String)} (h : (l.map fun p => node p.2).Nodup)
    {p : String × String} (hp : p ∈ l) (keys : Dict String String) :
    (keys.setAll (l.map fun p => (node p.2, p.1))).get? (node p.2) = some p.1 := by
  have hmem : (node p.2, p.1) ∈ l.map fun p => (node p.2, p.1) :=
    List.mem_map_of_mem (f := fun p : String × String => (node p.2, p.1)) hp
  obtain ⟨key, hkey, hget⟩ := Dict.get?_setAll_of_mem (d := keys) (List.mem_map_of_mem (f := Prod.fst) hmem)
  obtain ⟨q, hq, heq⟩ := List.mem_map.mp hkey
  obtain ⟨hnode, rfl⟩ := Prod.mk.inj heq
  obtain rfl : q = p := List.inj_on_of_nodup_map h hq hp hnode
  exact hget

/-! ## The requests -/

def chunkRequest (s : NodeSubscription) (items : List String) (i : Nat) : SubscribeRequest :=
  ⟨chunkAt items itemsPerRequest i, s.config.queue_size, s.config.sampling_interval_ms⟩

/-- One request after the other, what is left to do does not change. -/
theorem subscribeChunks_ok (hanswers : server.Answers) (items : List String) (starts : List Nat)
    (done : Subscribing) :
    subscribeChunks server s items starts done =
      let requests := starts.map (chunkRequest s items)
      let warnings := (server.answers done.requests requests).filterMap (rejection s.label)
      ({ requests := done.requests ++ requests
         warnings := done.warnings ++ warnings
         rejected := done.rejected + warnings.length }, .ok ()) := by
  induction starts generalizing done with
  | nil => simp [subscribeChunks, SubscriptionServer.answers]
  | cons i rest ih =>
      obtain ⟨handles, hok, -⟩ := hanswers done.requests (chunkRequest s items i)
      have hanswer := SubscriptionServer.answer_of_ok hok
      unfold chunkRequest at hok hanswer
      rw [subscribeChunks]
      dsimp only
      rw [hok]
      dsimp only
      rw [ih]
      simp only [List.map_cons, SubscriptionServer.answers, List.filterMap_append,
        List.length_append, List.append_assoc, List.singleton_append, Nat.add_assoc, chunkRequest,
        hanswer]

theorem nodes_chunkRequests (items : List String) :
    (((multiplesBelow items.length itemsPerRequest).map (chunkRequest s items)).map
      (·.nodes)) = chunks itemsPerRequest items := by
  rw [List.map_map]
  rfl

theorem isSome_rejection (label : String) (a : String × Handle) :
    (rejection label a).isSome = a.2.isStatus := by
  obtain ⟨node, _ | _⟩ := a <;> rfl

/-! ## Afterwards -/

theorem keys_after (secondsText : Int → String) (s : NodeSubscription) (past : List Event) :
    (s.after secondsText past).keys = s.keys := by
  induction past using List.reverseRecOn with
  | nil => rfl
  | append_singleton past e ih =>
      rw [after_snoc, ← ih]
      cases e with
      | notified node value now => rfl
      | statusChanged status =>
          unfold step statusChangeNotification
          dsimp only
          split <;> rfl
      | checked now =>
          obtain ⟨stale, hkeeps⟩ := checkHealth_keeps secondsText (s.after secondsText past) now
          unfold step
          dsimp only
          rw [hkeeps]

/-- A subscription that `start` leaves without an exception has been started. -/
theorem started_of_start {now : Utc} (hsince : s.last_received_at = none)
    (hfailed : s.failed_status = none) (hquiet : s.was_stale = false)
    (h : (start server s now).2.2 = .ok ()) : (start server s now).1.Started now := by
  unfold start at h ⊢
  split
  · next hcreate =>
      rw [hcreate] at h
      cases h
  · next hcreate =>
      rw [hcreate] at h
      dsimp only at h ⊢
      split
      · next hitems =>
          rw [hitems] at h
          cases h
      · next items hitems =>
          rw [hitems] at h
          dsimp only at h
          split
          · next hchunks =>
              rw [hchunks] at h
              cases h
          · next hchunks =>
              rw [hchunks] at h
              dsimp only at h
              split
              · next hrejected =>
                  rw [if_pos hrejected] at h
                  cases h
              · refine ⟨?_, hfailed, hquiet⟩
                unfold silentSince
                dsimp only
                rw [hsince]
                rfl

/-- What `start` owes, where `node` gives the node of a node id. -/
structure Subscribes (server : SubscriptionServer) (node : String → String)
    (s s' : NodeSubscription) (done : Subscribing) (outcome : Except Exc Unit) : Prop where
  /-- Each node is requested once, in order. -/
  requested : (done.requests.map (·.nodes)).flatten = s.nodes.items.map fun p => node p.2
  small : ∀ request ∈ done.requests, request.nodes.length ≤ itemsPerRequest
  /-- Each node has its answer. -/
  answered : (server.answers [] done.requests).map Prod.fst = s.nodes.items.map fun p => node p.2
  warned : done.warnings = (server.answers [] done.requests).filterMap (rejection s.label)
  outcome : outcome =
    if ∀ a ∈ server.answers [] done.requests, a.2.isStatus = true then
      .error (noneSubscribed s.label s.nodes.items.length)
    else .ok ()
  delivers : (s.nodes.items.map fun p => node p.2).Nodup →
    ∀ p ∈ s.nodes.items, ∀ id, (node p.2, .item id) ∈ server.answers [] done.requests →
      ∀ secondsText events value now,
        ((s'.after secondsText events).datachangeNotification (node p.2) value now).2 =
          some (p.1, value, now)

/-- All are rejected where there is a warning for each node. -/
theorem length_warnings_iff (label : String) (l : List (String × Handle)) :
    (l.filterMap (rejection label)).length = l.length ↔ ∀ a ∈ l, a.2.isStatus = true := by
  rw [List.filterMap_length_eq_length]
  refine forall₂_congr fun a _ => ?_
  rw [isSome_rejection]

theorem start_of_answers (hcreate : server.create s.config.publish_interval_ms = .ok ())
    (hnodes : ∀ p ∈ s.nodes.items, server.getNode p.2 = .ok (node p.2))
    (hanswers : server.Answers) (now : Utc) :
    let items := s.nodes.items.map fun p => node p.2
    let keys := s.keys.setAll (s.nodes.items.map fun p => (node p.2, p.1))
    let requests := (multiplesBelow items.length itemsPerRequest).map (chunkRequest s items)
    let warnings := (server.answers [] requests).filterMap (rejection s.label)
    start server s now =
      if warnings.length = items.length then
        ({ s with keys }, ⟨requests, warnings, warnings.length⟩,
          .error (noneSubscribed s.label items.length))
      else
        ({ s with keys, started_at := some now }, ⟨requests, warnings, warnings.length⟩, .ok ()) := by
  unfold start
  rw [hcreate, resolveNodes_ok hnodes]
  dsimp only
  rw [subscribeChunks_ok hanswers]
  simp only [List.nil_append, Nat.zero_add]
  rfl

/-- Whatever the server answers to the requests, `start` asks for each node
exactly once, in order and in requests of at most `itemsPerRequest` nodes,
warns about the rejected ones and no others, raises `ConnectionError` exactly
if all are rejected, and afterwards the notifications of a node go out under
its key. -/
theorem start_subscribes (server : SubscriptionServer) (s : NodeSubscription)
    (node : String → String) (now : Utc)
    (hcreate : server.create s.config.publish_interval_ms = .ok ())
    (hnodes : ∀ p ∈ s.nodes.items, server.getNode p.2 = .ok (node p.2))
    (hanswers : server.Answers) :
    Subscribes server node s (start server s now).1 (start server s now).2.1
      (start server s now).2.2 := by
  have hstart := start_of_answers hcreate hnodes hanswers now
  set items := s.nodes.items.map fun p => node p.2 with hitems
  set requests := (multiplesBelow items.length itemsPerRequest).map (chunkRequest s items)
  have hrequested : (requests.map (·.nodes)).flatten = items := by
    rw [nodes_chunkRequests, flatten_chunks (by decide)]
  have hanswered := SubscriptionServer.nodes_answers hanswers [] requests
  rw [hrequested] at hanswered
  have hlength : (server.answers [] requests).length = items.length := by
    rw [← hanswered, List.length_map]
  have hall := length_warnings_iff s.label (server.answers [] requests)
  rw [hlength] at hall
  have hdone : (start server s now).2.1.requests = requests ∧
      (start server s now).2.1.warnings = (server.answers [] requests).filterMap (rejection s.label) ∧
      (start server s now).1.keys = s.keys.setAll (s.nodes.items.map fun p => (node p.2, p.1)) := by
    rw [hstart]
    split <;> exact ⟨rfl, rfl, rfl⟩
  obtain ⟨hrequests, hwarnings, hkeys⟩ := hdone
  refine ⟨?_, ?_, ?_, ?_, ?_, ?_⟩
  · rw [hrequests, hrequested]
  · intro request hrequest
    rw [hrequests] at hrequest
    obtain ⟨i, -, rfl⟩ := List.mem_map.mp hrequest
    exact length_chunkAt_le items itemsPerRequest i
  · rw [hrequests, hanswered]
  · rw [hwarnings, hrequests]
  · have hcount : s.nodes.items.length = items.length := by rw [hitems, List.length_map]
    rw [hrequests, hstart, hcount]
    by_cases hrejected : ∀ a ∈ server.answers [] requests, a.2.isStatus = true
    · rw [if_pos (hall.mpr hrejected), if_pos hrejected]
    · rw [if_neg fun h => hrejected (hall.mp h), if_neg hrejected]
  · intro hdistinct p hp id hid secondsText events value received
    unfold datachangeNotification
    rw [keys_after, hkeys, get?_setAll_nodes hdistinct hp]
    rfl

/-- A server that reads every node id as it is and knows all nodes but these. -/
def serverWithout (unknown : List String) : SubscriptionServer where
  create _ := .ok ()
  getNode node_id := .ok node_id
  subscribe requests :=
    .ok ((requests.getLast?.elim [] (·.nodes)).map fun node =>
      if node ∈ unknown then .status ⟨"BadNodeIdUnknown", false⟩ else .item 1)

theorem answers_serverWithout (unknown : List String) : (serverWithout unknown).Answers := by
  intro past request
  refine ⟨_, rfl, ?_⟩
  rw [List.length_map, List.getLast?_concat]
  rfl

def twoTags : NodeSubscription :=
  .new "[plant]" (Dict.ofList [("tank", "ns=2;s=tank"), ("pump", "ns=2;s=pump")]) {}

theorem start_subscribes_twoTags :
    let started := start (serverWithout ["ns=2;s=pump"]) twoTags (atMinute 0)
    Subscribes (serverWithout ["ns=2;s=pump"]) id twoTags started.1 started.2.1 started.2.2 :=
  start_subscribes _ _ id _ rfl (fun _ _ => rfl) (answers_serverWithout _)

end NodeSubscription

end KepServerLogger.Lib
