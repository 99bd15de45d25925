import KepServerLogger.Lib.MergedSessions
import KepServerLogger.Proofs.ClientMapSteps

/-!
# Which clients a merge loses

The merged map has tags and tokens for its keys. A session that is added under
its own key takes the place of whatever is there, a tag's session or one added
before it. No tag is lost by this, but a client can be. What is added, and
where, depends on the two maps only.
-/

namespace KepServerLogger.Lib

open KepServerLogger.Py

variable {m : ClientMaps} {active : Dict String ClientSession} {r r' : Ref} {tag k c : String}
  {s : ClientSession}

namespace ClientMaps

def tokenOf (m : ClientMaps) (r : Ref) : String := (m.objects.get r).auth_token

def keyOf (m : ClientMaps) (r : Ref) : String := (m.objects.get r).key

/-- The session of a tag carries the token of a session of the handshakes. -/
def Carries (m : ClientMaps) (s : ClientSession) (r : Ref) : Prop :=
  r ∈ m.values ∧ s.auth_token ≠ "" ∧ m.tokenOf r = s.auth_token

theorem mem_values (h : r ∈ m.values) : ∃ k, m.sessions.get? k = some r := by
  obtain ⟨⟨k, _⟩, hmem, rfl⟩ := List.mem_map.mp h
  exact ⟨k, Dict.get?_eq_some.mpr hmem⟩

theorem WellFormed.lt_of_mem_values (h : WellFormed m) (hr : r ∈ m.values) :
    r < m.objects.size := by
  obtain ⟨k, hk⟩ := mem_values hr
  exact h.sessions k r hk

/-! ## handshake_by_token -/

theorem carries_of_byToken (h : m.byToken.get? s.auth_token = some r) : m.Carries s r := by
  obtain ⟨q, hq, heq⟩ := List.mem_map.mp (Dict.mem_of_get?_ofList h)
  obtain ⟨hvalue, htoken⟩ := List.mem_filter.mp hq
  obtain ⟨htoken', rfl⟩ := Prod.mk.inj heq
  rw [htoken'] at htoken
  exact ⟨hvalue, by simpa using htoken, htoken'⟩

theorem byToken_of_carries (h : m.Carries s r) :
    ∃ q, m.byToken.get? s.auth_token = some q ∧ m.Carries s q := by
  obtain ⟨hvalue, hne, htoken⟩ := h
  have hmem : s.auth_token ∈ ((m.values.filter fun r => (m.objects.get r).auth_token ≠ "").map
      fun r => ((m.objects.get r).auth_token, r)).map Prod.fst := by
    rw [List.map_map]
    refine List.mem_map.mpr ⟨r, List.mem_filter.mpr ⟨hvalue, ?_⟩, htoken⟩
    rw [show (m.objects.get r).auth_token = s.auth_token from htoken]
    simpa using hne
  obtain ⟨q, -, hget⟩ := Dict.get?_ofList_of_mem hmem
  exact ⟨q, hget, carries_of_byToken hget⟩

end ClientMaps

/-! ## The session of a tag keeps its name -/

theorem observe_application_name (s : ClientSession) (ev : OpcEvent) :
    (s.observe ev).application_name = s.application_name := by
  have htoken : (s.observeToken ev).application_name = s.application_name := by
    unfold ClientSession.observeToken
    split <;> rfl
  have hrequest : ∀ s : ClientSession,
      (s.observeRequest ev).application_name = s.application_name := by
    intro s
    unfold ClientSession.observeRequest
    split <;> rfl
  have hend : ∀ s : ClientSession, (s.observeEnd ev).application_name = s.application_name := by
    intro s
    unfold ClientSession.observeEnd
    split
    · rfl
    · split <;> rfl
  rw [ClientSession.observe, hend, hrequest, htoken]

def Named (active : Dict String ClientSession) : Prop :=
  ∀ tag s, active.get? tag = some s → s.application_name = tag

theorem named_activeStep (h : Named active) (ev : OpcEvent) : Named (activeStep active ev) := by
  intro tag s hs
  unfold activeStep at hs
  split at hs
  · rw [Dict.get?_set] at hs
    split at hs
    · next htag =>
        subst htag
        cases hs
        rw [observe_application_name, Dict.getD]
        cases hold : active.get? ev.session_tag with
        | none => rfl
        | some s => exact h _ s hold
    · exact h tag s hs
  · exact h tag s hs

theorem named_buildActiveMap (events : List OpcEvent) : Named (buildActiveMap events) :=
  foldl_invariant (f := activeStep) (P := Named) (fun _ ev h => named_activeStep h ev)
    (fun _ _ h => by cases h) events

/-! ## The first loop -/

/-- What the first loop puts under a tag. -/
def entryOf (m : ClientMaps) (s : ClientSession) : Merged :=
  match m.byToken.get? s.auth_token with
  | some r => .rich r
  | none => .own s

def nameOf (m : ClientMaps) : Merged → String
  | .rich r => m.appOf r
  | .own s => s.application_name

/-- The sessions are those of the handshakes, but for when they were last seen. -/
def SameSessions (m : ClientMaps) (x : Sessions) : Prop :=
  ∀ r, (x.objects.get r).handshake = (m.objects.get r).handshake

theorem sameSessions_mergeTag {x : Sessions} (h : SameSessions m x)
    (p : String × ClientSession) : SameSessions m (x.mergeTag m.byToken p) := by
  intro q
  unfold Sessions.mergeTag
  split
  · refine Eq.trans ?_ (h q)
    exact Heap.get_modify_keeps ClientSession.handshake fun _ => rfl
  · exact h q

theorem merged_mergeTag (x : Sessions) (p : String × ClientSession) :
    (x.mergeTag m.byToken p).merged = x.merged.set p.1 (entryOf m p.2) := by
  unfold Sessions.mergeTag entryOf
  cases m.byToken.get? p.2.auth_token <;> rfl

theorem mergeTags_spec (active : Dict String ClientSession) (m : ClientMaps) :
    SameSessions m (mergeTags active m) ∧
      (mergeTags active m).merged =
        (∅ : Dict String Merged).setAll (active.items.map fun p => (p.1, entryOf m p.2)) := by
  have hloop : ∀ (l : List (String × ClientSession)) (x : Sessions), SameSessions m x →
      SameSessions m (l.foldl (Sessions.mergeTag m.byToken) x) ∧
        (l.foldl (Sessions.mergeTag m.byToken) x).merged =
          x.merged.setAll (l.map fun p => (p.1, entryOf m p.2)) := by
    intro l
    induction l with
    | nil => exact fun x hx => ⟨hx, rfl⟩
    | cons p l ih =>
        intro x hx
        obtain ⟨hsame, hmerged⟩ := ih (x.mergeTag m.byToken p) (sameSessions_mergeTag hx p)
        refine ⟨hsame, hmerged.trans ?_⟩
        rw [merged_mergeTag]
        rfl
  exact hloop active.items ⟨m.objects, ∅⟩ fun _ => rfl

/-- After the first loop the tags have their entries, and nothing else has. -/
theorem get?_mergeTags (active : Dict String ClientSession) (m : ClientMaps) (tag : String) :
    (mergeTags active m).merged.get? tag = (active.get? tag).map (entryOf m) := by
  rw [(mergeTags_spec active m).2]
  have hkeys : (active.items.map fun p => (p.1, entryOf m p.2)).map Prod.fst = active.keys := by
    rw [List.map_map]
    rfl
  by_cases htag : tag ∈ active.keys
  · obtain ⟨e, he, hget⟩ := Dict.get?_setAll_of_mem (d := (∅ : Dict String Merged))
      (hkeys.symm ▸ htag)
    obtain ⟨⟨tag', s⟩, hs, heq⟩ := List.mem_map.mp he
    obtain ⟨rfl, rfl⟩ := Prod.mk.inj heq
    rw [hget, Dict.get?_eq_some.mpr hs, Option.map_some]
  · rw [Dict.get?_setAll_of_not_mem (hkeys.symm ▸ htag), Dict.get?_eq_none.mpr htag]
    rfl

theorem SameSessions.application_name {x : Sessions} (h : SameSessions m x) (r : Ref) :
    (x.objects.get r).application_name = m.appOf r := congrArg Prod.fst (h r)

theorem SameSessions.key {x : Sessions} (h : SameSessions m x) (r : Ref) :
    (x.objects.get r).key = m.keyOf r := ClientMaps.key_eq_of_handshake (h r)

theorem SameSessions.sessionOf {x : Sessions} (h : SameSessions m x) (e : Merged) :
    (x.sessionOf e).application_name = nameOf m e := by
  cases e with
  | rich r => exact h.application_name r
  | own s => rfl

/-! ## The second loop -/

/-- The sessions that the second loop adds, under their keys. -/
def addedItems (m : ClientMaps) (tagged : List String) : List (String × Merged) :=
  (m.values.filter fun r => m.appOf r ∉ tagged).map fun r => (m.keyOf r, .rich r)

theorem mergeHandshakes_spec {x : Sessions} (hx : SameSessions m x) (tagged : List String)
    (l : List Ref) :
    l.foldl (Sessions.mergeHandshake tagged) x =
      { x with merged := x.merged.setAll ((l.filter fun r => m.appOf r ∉ tagged).map
          fun r => (m.keyOf r, .rich r)) } := by
  induction l generalizing x with
  | nil => rfl
  | cons r l ih =>
      rw [List.foldl_cons]
      have hstep : x.mergeHandshake tagged r =
          if m.appOf r ∈ tagged then x else { x with merged := x.merged.set (m.keyOf r) (.rich r) } := by
        rw [Sessions.mergeHandshake, hx.application_name, hx.key]
      rw [hstep]
      split
      · next htagged => rw [ih hx, List.filter_cons_of_neg (by simpa using htagged)]
      · next htagged =>
          have hset : SameSessions m
              { x with merged := x.merged.set (m.keyOf r) (.rich r) } := hx
          rw [ih hset, List.filter_cons_of_pos (by simpa using htagged)]
          rfl

theorem buildSessions_spec (events : List OpcEvent) :
    SameSessions (buildClientMap events) (buildSessions events) ∧
      (buildSessions events).merged =
        (mergeTags (buildActiveMap events) (buildClientMap events)).merged.setAll
          (addedItems (buildClientMap events)
            (mergeTags (buildActiveMap events) (buildClientMap events)).tagged) := by
  have hsame := (mergeTags_spec (buildActiveMap events) (buildClientMap events)).1
  unfold buildSessions
  rw [mergeHandshakes_spec hsame]
  exact ⟨hsame, rfl⟩

/-- The names that the first loop reached are those of its entries. -/
theorem mem_tagged :
    c ∈ (mergeTags active m).tagged ↔
      ∃ tag s, active.get? tag = some s ∧ nameOf m (entryOf m s) = c := by
  have hsame := (mergeTags_spec active m).1
  unfold Sessions.tagged
  rw [List.mem_map]
  constructor
  · intro h
    obtain ⟨⟨tag, e⟩, hmem, rfl⟩ := h
    have hget := get?_mergeTags active m tag
    rw [Dict.get?_eq_some.mpr hmem] at hget
    obtain ⟨s, hs, rfl⟩ := Option.map_eq_some_iff.mp hget.symm
    exact ⟨tag, s, hs, (hsame.sessionOf _).symm⟩
  · intro h
    obtain ⟨tag, s, hs, rfl⟩ := h
    have hget := get?_mergeTags active m tag
    rw [hs, Option.map_some] at hget
    exact ⟨(tag, entryOf m s), Dict.get?_eq_some.mp hget, hsame.sessionOf _⟩

/-! ## The condition -/

/-- The session of the tag is merged with one of this application, or is one
of its own. -/
def Leads (active : Dict String ClientSession) (m : ClientMaps) (tag c : String) : Prop :=
  ∃ s, active.get? tag = some s ∧
    ((∃ r, m.Carries s r ∧ m.appOf r = c) ∨ ((∀ r, ¬ m.Carries s r) ∧ tag = c))

/-- No tag leads to the session, so it is added under its key. -/
def Added (active : Dict String ClientSession) (m : ClientMaps) (r : Ref) : Prop :=
  r ∈ m.values ∧ ∀ tag, ¬ Leads active m tag (m.appOf r)

/-- What is added takes no other client's place, and a token is one client's. -/
structure KeepsApart (active : Dict String ClientSession) (m : ClientMaps) : Prop where
  added : ∀ r r', Added active m r → Added active m r' → m.keyOf r = m.keyOf r' → r = r'
  reached : ∀ r ∈ m.values, (∃ tag, Leads active m tag (m.appOf r)) →
    ∃ tag, Leads active m tag (m.appOf r) ∧ ∀ q, Added active m q → m.keyOf q ≠ tag
  carried : ∀ tag s r, active.get? tag = some s → m.Carries s r →
    (∀ q, Added active m q → m.keyOf q ≠ tag) ∧ ∀ q, m.Carries s q → q = r

/-- Every tag has an entry, every client of the handshakes is in the map, and a
tag with its token has its session. -/
def LosesNoClient (active : Dict String ClientSession) (m : ClientMaps) (x : Sessions) : Prop :=
  (∀ tag, (active.get? tag).isSome → (x.merged.get? tag).isSome) ∧
    (∀ r ∈ m.values, ∃ k e, x.merged.get? k = some e ∧
      (x.sessionOf e).application_name = m.appOf r) ∧
    ∀ tag s r, active.get? tag = some s → m.Carries s r → x.merged.get? tag = some (.rich r)

/-! ## What is under a key of the merged map -/

/-- A token that a tag carries is one client's. -/
def OneHolder (active : Dict String ClientSession) (m : ClientMaps) : Prop :=
  ∀ tag s r, active.get? tag = some s → m.Carries s r → ∀ q, m.Carries s q → q = r

theorem KeepsApart.oneHolder (h : KeepsApart active m) : OneHolder active m :=
  fun tag s r hs hr => (h.carried tag s r hs hr).2

theorem leads_of_entry (hnamed : Named active) (hs : active.get? tag = some s) :
    Leads active m tag (nameOf m (entryOf m s)) := by
  refine ⟨s, hs, ?_⟩
  unfold entryOf
  split
  · next r hr => exact .inl ⟨r, ClientMaps.carries_of_byToken hr, rfl⟩
  · next hnone =>
      refine .inr ⟨fun r hr => ?_, (hnamed tag s hs).symm⟩
      obtain ⟨q, hq, -⟩ := ClientMaps.byToken_of_carries hr
      exact nomatch hnone.symm.trans hq

theorem entryOf_of_carries (hone : OneHolder active m) (hs : active.get? tag = some s)
    (hr : m.Carries s r) : entryOf m s = .rich r := by
  obtain ⟨q, hq, hcarries⟩ := ClientMaps.byToken_of_carries hr
  rw [entryOf, hq, hone tag s r hs hr q hcarries]

theorem nameOf_entry_of_leads (hone : OneHolder active m) (hnamed : Named active)
    (h : Leads active m tag c) : ∃ s, active.get? tag = some s ∧ nameOf m (entryOf m s) = c := by
  obtain ⟨s, hs, ⟨r, hr, happ⟩ | ⟨hnone, rfl⟩⟩ := h
  · exact ⟨s, hs, by rw [entryOf_of_carries hone hs hr]; exact happ⟩
  · refine ⟨s, hs, ?_⟩
    have hown : entryOf m s = .own s := by
      unfold entryOf
      split
      · next r hr => exact absurd (ClientMaps.carries_of_byToken hr) (hnone r)
      · rfl
    rw [hown]
    exact hnamed tag s hs

theorem mem_tagged_iff_leads (hone : OneHolder active m) (hnamed : Named active) :
    c ∈ (mergeTags active m).tagged ↔ ∃ tag, Leads active m tag c := by
  rw [mem_tagged]
  constructor
  · intro h
    obtain ⟨tag, s, hs, rfl⟩ := h
    exact ⟨tag, leads_of_entry hnamed hs⟩
  · intro h
    obtain ⟨tag, hleads⟩ := h
    exact ⟨tag, nameOf_entry_of_leads hone hnamed hleads⟩

theorem mem_addedItems (hone : OneHolder active m) (hnamed : Named active) {e : Merged} :
    (k, e) ∈ addedItems m (mergeTags active m).tagged ↔
      ∃ r, Added active m r ∧ m.keyOf r = k ∧ e = .rich r := by
  have hadded : ∀ r, r ∈ m.values.filter (fun r => m.appOf r ∉ (mergeTags active m).tagged) ↔
      Added active m r := by
    intro r
    rw [List.mem_filter, decide_eq_true_eq, mem_tagged_iff_leads hone hnamed, not_exists]
    rfl
  unfold addedItems
  rw [List.mem_map]
  constructor
  · intro h
    obtain ⟨r, hr, heq⟩ := h
    obtain ⟨hkey, hrich⟩ := Prod.mk.inj heq
    exact ⟨r, (hadded r).mp hr, hkey, hrich.symm⟩
  · intro h
    obtain ⟨r, hr, hkey, hrich⟩ := h
    exact ⟨r, (hadded r).mpr hr, by rw [hkey, hrich]⟩

section Entries

variable {x : Sessions}

/-- The merged map after both loops. -/
def MergedFrom (active : Dict String ClientSession) (m : ClientMaps) (x : Sessions) : Prop :=
  x.merged = (mergeTags active m).merged.setAll (addedItems m (mergeTags active m).tagged)

/-- Where no session is added, the tag keeps its entry. -/
theorem MergedFrom.kept (h : MergedFrom active m x) (hone : OneHolder active m)
    (hnamed : Named active) (hkey : ∀ q, Added active m q → m.keyOf q ≠ k) :
    x.merged.get? k = (active.get? k).map (entryOf m) := by
  have hfree : k ∉ (addedItems m (mergeTags active m).tagged).map Prod.fst := by
    intro hmem
    obtain ⟨⟨k', e⟩, he, rfl⟩ := List.mem_map.mp hmem
    obtain ⟨q, hq, hq', -⟩ := (mem_addedItems hone hnamed).mp he
    exact hkey q hq hq'
  rw [h, Dict.get?_setAll_of_not_mem hfree, get?_mergeTags]

/-- Where a session is added, one of those added there is the entry. -/
theorem MergedFrom.taken (h : MergedFrom active m x) (hone : OneHolder active m)
    (hnamed : Named active) (hr : Added active m r) :
    ∃ q, Added active m q ∧ m.keyOf q = m.keyOf r ∧
      x.merged.get? (m.keyOf r) = some (.rich q) := by
  have hitem := (mem_addedItems hone hnamed).mpr ⟨r, hr, rfl, rfl⟩
  obtain ⟨e, he, hget⟩ := Dict.get?_setAll_of_mem (d := (mergeTags active m).merged)
    (List.mem_map_of_mem (f := Prod.fst) hitem)
  obtain ⟨q, hq, hkey, rfl⟩ := (mem_addedItems hone hnamed).mp he
  exact ⟨q, hq, hkey, by rw [h]; exact hget⟩

/-- What is under a key was added there, or a tag leads to it. -/
theorem MergedFrom.cases (h : MergedFrom active m x) (hone : OneHolder active m)
    (hnamed : Named active) {e : Merged} (hk : x.merged.get? k = some e) :
    (∃ q, Added active m q ∧ m.keyOf q = k ∧ e = .rich q) ∨
      (∀ q, Added active m q → m.keyOf q ≠ k) ∧ Leads active m k (nameOf m e) := by
  by_cases hadded : ∃ q, Added active m q ∧ m.keyOf q = k
  · obtain ⟨r, hr, rfl⟩ := hadded
    obtain ⟨q, hq, hkey, hget⟩ := h.taken hone hnamed hr
    exact .inl ⟨q, hq, hkey, Option.some.inj (hk.symm.trans hget)⟩
  · have hfree : ∀ q, Added active m q → m.keyOf q ≠ k := fun q hq hkey => hadded ⟨q, hq, hkey⟩
    rw [h.kept hone hnamed hfree] at hk
    obtain ⟨s, hs, rfl⟩ := Option.map_eq_some_iff.mp hk
    exact .inr ⟨hfree, leads_of_entry hnamed hs⟩

end Entries

/-! ## Nothing is lost just when the keys keep the clients apart -/

section Law

variable {x : Sessions}

theorem keepsApart_of_losesNoClient (hx : SameSessions m x) (hmerged : MergedFrom active m x)
    (hnamed : Named active) (hwf : m.WellFormed) (h : LosesNoClient active m x) :
    KeepsApart active m := by
  obtain ⟨-, hclients, htokens⟩ := h
  have hone : OneHolder active m := by
    intro tag s r hs hr q hq
    exact Merged.rich.inj (Option.some.inj ((htokens tag s q hs hq).symm.trans
      (htokens tag s r hs hr)))
  -- A client that is added is found under its own key only.
  have hown : ∀ r, Added active m r → x.merged.get? (m.keyOf r) = some (.rich r) := by
    intro r hr
    obtain ⟨k, e, hk, hname⟩ := hclients r hr.1
    rw [hx.sessionOf] at hname
    obtain ⟨q, hq, rfl, rfl⟩ | ⟨-, hleads⟩ := hmerged.cases hone hnamed hk
    · have hqr : q = r := hwf.eq_of_appOf (hwf.lt_of_mem_values hq.1)
        (hwf.lt_of_mem_values hr.1) hname
      rw [← hqr]
      exact hk
    · exact absurd (hname ▸ hleads) (hr.2 k)
  refine ⟨?_, ?_, ?_⟩
  · intro r r' hr hr' hkey
    have hget := hown r hr
    rw [hkey, hown r' hr'] at hget
    exact (Merged.rich.inj (Option.some.inj hget)).symm
  · intro r hr hreached
    obtain ⟨tag, htag⟩ := hreached
    obtain ⟨k, e, hk, hname⟩ := hclients r hr
    rw [hx.sessionOf] at hname
    obtain ⟨q, hq, -, rfl⟩ | ⟨hfree, hleads⟩ := hmerged.cases hone hnamed hk
    · rw [← hname] at htag
      exact absurd htag (hq.2 tag)
    · exact ⟨k, hname ▸ hleads, hfree⟩
  · intro tag s r hs hr
    refine ⟨?_, hone tag s r hs hr⟩
    intro q hq hkey
    have hget := hown q hq
    rw [hkey, htokens tag s r hs hr] at hget
    have hqr := Merged.rich.inj (Option.some.inj hget)
    exact hq.2 tag ⟨s, hs, .inl ⟨r, hr, by rw [hqr]⟩⟩

theorem losesNoClient_of_keepsApart (hx : SameSessions m x) (hmerged : MergedFrom active m x)
    (hnamed : Named active) (h : KeepsApart active m) : LosesNoClient active m x := by
  have hone := h.oneHolder
  refine ⟨?_, ?_, ?_⟩
  · intro tag htag
    by_cases hadded : ∃ q, Added active m q ∧ m.keyOf q = tag
    · obtain ⟨r, hr, rfl⟩ := hadded
      obtain ⟨q, -, -, hget⟩ := hmerged.taken hone hnamed hr
      rw [hget]
      rfl
    · rw [hmerged.kept hone hnamed fun q hq hkey => hadded ⟨q, hq, hkey⟩, Option.isSome_map]
      exact htag
  · intro r hr
    by_cases hreached : ∃ tag, Leads active m tag (m.appOf r)
    · obtain ⟨tag, hleads, hfree⟩ := h.reached r hr hreached
      obtain ⟨s, hs, hname⟩ := nameOf_entry_of_leads hone hnamed hleads
      refine ⟨tag, entryOf m s, ?_, (hx.sessionOf _).trans hname⟩
      rw [hmerged.kept hone hnamed hfree, hs]
      rfl
    · have hadded : Added active m r := ⟨hr, fun tag htag => hreached ⟨tag, htag⟩⟩
      obtain ⟨q, hq, hkey, hget⟩ := hmerged.taken hone hnamed hadded
      rw [h.added q r hq hadded hkey] at hget
      exact ⟨m.keyOf r, .rich r, hget, hx.sessionOf _⟩
  · intro tag s r hs hr
    rw [hmerged.kept hone hnamed (h.carried tag s r hs hr).1, hs, Option.map_some,
      entryOf_of_carries hone hs hr]

end Law

theorem losesNoClient_iff (events : List OpcEvent) :
    LosesNoClient (buildActiveMap events) (buildClientMap events) (buildSessions events) ↔
      KeepsApart (buildActiveMap events) (buildClientMap events) := by
  obtain ⟨hx, hmerged⟩ := buildSessions_spec events
  have hnamed := named_buildActiveMap events
  exact ⟨keepsApart_of_losesNoClient hx hmerged hnamed (wellFormed_buildClientMap events),
    losesNoClient_of_keepsApart hx hmerged hnamed⟩

/-- One client is given a token that is the tag of the other's session. -/
def tokenForTag : List OpcEvent :=
  [.request "2026-01-01T12:00:00Z" "NoSession" "Historian",
    .response "2026-01-01T12:00:01Z" "NoSession" "Good" "1001",
    .request "2026-01-01T12:00:02Z" "NoSession" "Gateway",
    .response "2026-01-01T12:00:03Z" "NoSession" "Good" "i=2",
    { timestamp := "2026-01-01T12:00:04Z", session_tag := "1001", event_type := "ReadRequest"
      fields := ⟨[("authenticationToken", "i=2")], List.nodup_singleton _⟩ }]

/-- The tag's entry is not the client whose token it carries. -/
theorem tokenForTag_losesClient :
    (buildSessions tokenForTag).merged.items = [("1001", .rich 0)] ∧
      (buildClientMap tokenForTag).values = [0, 1] ∧
      ((buildActiveMap tokenForTag).get? "1001").map (·.auth_token) = some "i=2" ∧
      (buildClientMap tokenForTag).tokenOf 1 = "i=2" ∧
      ¬ LosesNoClient (buildActiveMap tokenForTag) (buildClientMap tokenForTag)
        (buildSessions tokenForTag) := by
  have hmerged : (buildSessions tokenForTag).merged.items = [("1001", .rich 0)] := by decide
  have hvalues : (buildClientMap tokenForTag).values = [0, 1] := by decide
  have htag : ((buildActiveMap tokenForTag).get? "1001").map (·.auth_token) = some "i=2" := by
    decide
  have htoken : (buildClientMap tokenForTag).tokenOf 1 = "i=2" := by decide
  refine ⟨hmerged, hvalues, htag, htoken, ?_⟩
  intro h
  obtain ⟨s, hs, hsToken⟩ := Option.map_eq_some_iff.mp htag
  have hcarries : (buildClientMap tokenForTag).Carries s 1 := by
    refine ⟨by rw [hvalues]; decide, ?_, htoken.trans hsToken.symm⟩
    rw [show s.auth_token = "i=2" from hsToken]
    decide
  have hentry := Dict.get?_eq_some.mp (h.2.2 "1001" s 1 hs hcarries)
  rw [hmerged] at hentry
  exact absurd hentry (by decide)

end KepServerLogger.Lib
