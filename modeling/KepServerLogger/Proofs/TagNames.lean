import KepServerLogger.Base.Raising
import KepServerLogger.Ingestor.Channels

/-!
# What a tag is stored under

The name of a tag is its node id below the prefix of its channel, so a channel
and a name determine the node. The name alone does not: channels are read one
by one and their rows meet in one table, where nothing says which channel a
row came from.
-/

namespace KepServerLogger.Ingestor

open KepServerLogger.Py KepServerLogger.Lib

/-- The node id is the name below the prefix; below the empty prefix a leading
dot does not count. -/
def Below (nodePrefix name id : String) : Prop :=
  id = nodePrefix ++ "." ++ name ∨
    nodePrefix = "" ∧ id = name ∧ ¬ ".".toList <+: name.toList

variable {pandas : CsvReader} {server : ServerConfig} {nodeText : String → String}
  {channels : Dict String (Dict String String)} {channel channel' node node' name name' : String}

theorem Below.unique {nodePrefix id : String} (h : Below nodePrefix name id)
    (h' : Below nodePrefix name' id) : name = name' := by
  have hdot : ∀ n : String, ".".toList <+: ("" ++ "." ++ n).toList := by
    intro n
    rw [String.toList_append, String.toList_append]
    exact List.prefix_append _ _
  rcases h with rfl | ⟨rfl, rfl, hname⟩
  · rcases h' with h' | ⟨rfl, h', hname'⟩
    · rw [String.append_right_inj] at h'
      exact h'
    · rw [← h'] at hname'
      exact absurd (hdot name) hname'
  · rcases h' with h' | ⟨_, h', _⟩
    · rw [h'] at hname
      exact absurd (hdot name') hname
    · exact h'

/-- The name that the prefix leaves. -/
theorem below_removePrefix (nodePrefix tag : String) :
    Below nodePrefix (removePrefix (nodeId nodePrefix tag) (nodePrefix ++ "."))
      (nodeId nodePrefix tag) := by
  unfold nodeId
  split
  · next hempty =>
      subst hempty
      by_cases hdot : ".".toList <+: tag.toList
      · obtain ⟨rest, hrest⟩ := hdot
        have htag : tag = "" ++ "." ++ String.ofList rest := by
          rw [← String.toList_inj, ← hrest]
          simp
        rw [htag, removePrefix_append]
        exact .inl rfl
      · rw [removePrefix_of_not (by simpa using hdot)]
        exact .inr ⟨rfl, rfl, hdot⟩
  · rw [removePrefix_append]
    exact .inl rfl

/-! ## The tags of a channel -/

theorem mem_extractTagsFromCsv {nodePrefix type_filter separator tag_column type_column
    filename : String} {exclude_tags ids : List String}
    (h : extractTagsFromCsv pandas nodePrefix type_filter separator exclude_tags tag_column
      type_column filename = .ok ids) {id : String} (hid : id ∈ ids) :
    ∃ tag, id = nodeId nodePrefix tag := by
  obtain ⟨_, _, h⟩ := ok_of_bind h
  obtain ⟨_, _, h⟩ := ok_of_bind h
  obtain ⟨_, _, h⟩ := ok_of_bind h
  obtain ⟨names, _, h⟩ := ok_of_bind h
  cases h
  obtain ⟨tag, _, rfl⟩ := List.mem_map.mp (List.mem_of_mem_filter hid)
  exact ⟨tag, rfl⟩

theorem below_of_mem_channelTags {nodePrefix : String} {nodes : Dict String String}
    (h : channelTags pandas server channel nodePrefix = .ok nodes) {id : String}
    (hmem : (name, id) ∈ nodes.items) : Below nodePrefix name id := by
  obtain ⟨ids, hids, h⟩ := ok_of_bind h
  cases h
  have hpair := Dict.mem_of_get?_ofList (Dict.get?_eq_some.mpr hmem)
  obtain ⟨n, hn, heq⟩ := List.mem_map.mp hpair
  cases heq
  obtain ⟨tag, rfl⟩ := mem_extractTagsFromCsv hids hn
  exact below_removePrefix nodePrefix tag

/-- The tags of a channel are read with the channel's prefix. -/
theorem channelTags_of_get? (h : getChannelTags pandas server = .ok channels)
    {nodes : Dict String String} (hget : channels.get? channel = some nodes) :
    ∃ nodePrefix, server.tag_channels.get? channel = some nodePrefix ∧
      channelTags pandas server channel nodePrefix = .ok nodes := by
  obtain ⟨pairs, hpairs, h⟩ := ok_of_bind h
  cases h
  obtain ⟨⟨c, nodePrefix⟩, hmem, hturn⟩ :=
    mem_of_mapM_ok hpairs _ (Dict.mem_of_get?_ofList hget)
  cases htags : channelTags pandas server c nodePrefix with
  | error e =>
      rw [htags] at hturn
      cases hturn
  | ok tags =>
      rw [htags] at hturn
      cases hturn
      exact ⟨nodePrefix, Dict.get?_eq_some.mpr hmem, htags⟩

/-! ## The rows -/

/-- A row says the name that the channel has for the node. -/
theorem entry_of_storedUnder (h : StoredUnder nodeText channels channel node name) :
    ∃ nodes id, channels.get? channel = some nodes ∧ (name, id) ∈ nodes.items ∧
      nodeText id = node := by
  obtain ⟨nodes, hnodes, dataValue, receivedAt, row, hrow, htag⟩ := h
  unfold notifiedRow at hrow
  split at hrow
  · cases hrow
  · next key hkey =>
      have hname : key = name := by
        unfold Ingest.addTag at hrow
        cases hvalue : dataValue.value with
        | none =>
            rw [hvalue] at hrow
            cases hrow
        | some value =>
            rw [hvalue] at hrow
            have hfirst := Option.some.inj hrow
            rw [← hfirst] at htag
            exact PyValue.str.inj (Option.some.inj htag)
      obtain ⟨p, hp, heq⟩ := List.mem_map.mp (Dict.mem_of_get?_ofList hkey)
      cases heq
      subst hname
      exact ⟨nodes, p.2, hnodes, hp, rfl⟩

/-- Two nodes of a server that differ have one name exactly if their ids agree
below the prefixes of their channels; and then the channels are two, and their
prefixes differ or are both empty. -/
theorem tag_shared_iff (h : getChannelTags pandas server = .ok channels)
    (hstored : StoredUnder nodeText channels channel node name)
    (hstored' : StoredUnder nodeText channels channel' node' name') (hne : node ≠ node') :
    ∃ nodePrefix nodePrefix' nodes nodes' id id',
      server.tag_channels.get? channel = some nodePrefix ∧
      server.tag_channels.get? channel' = some nodePrefix' ∧
      channels.get? channel = some nodes ∧ channels.get? channel' = some nodes' ∧
      (name, id) ∈ nodes.items ∧ (name', id') ∈ nodes'.items ∧
      nodeText id = node ∧ nodeText id' = node' ∧
      (name = name' ↔ ∃ n, Below nodePrefix n id ∧ Below nodePrefix' n id') ∧
      (name = name' → channel ≠ channel' ∧ (nodePrefix ≠ nodePrefix' ∨ nodePrefix = "")) := by
  obtain ⟨nodes, id, hget, hmem, hid⟩ := entry_of_storedUnder hstored
  obtain ⟨nodes', id', hget', hmem', hid'⟩ := entry_of_storedUnder hstored'
  obtain ⟨nodePrefix, hprefix, htags⟩ := channelTags_of_get? h hget
  obtain ⟨nodePrefix', hprefix', htags'⟩ := channelTags_of_get? h hget'
  have hbelow := below_of_mem_channelTags htags hmem
  have hbelow' := below_of_mem_channelTags htags' hmem'
  have hids : id ≠ id' := by
    intro heq
    subst heq
    exact hne (hid.symm.trans hid')
  refine ⟨nodePrefix, nodePrefix', nodes, nodes', id, id', hprefix, hprefix', hget, hget', hmem,
    hmem', hid, hid', ⟨?_, ?_⟩, ?_⟩
  · intro hname
    subst hname
    exact ⟨name, hbelow, hbelow'⟩
  · intro hshared
    obtain ⟨n, hn, hn'⟩ := hshared
    rw [hbelow.unique hn, hbelow'.unique hn']
  · intro hname
    subst hname
    refine ⟨?_, ?_⟩
    · intro hchannel
      subst hchannel
      rw [hget] at hget'
      cases hget'
      have hboth := (Dict.get?_eq_some.mpr hmem).symm.trans (Dict.get?_eq_some.mpr hmem')
      exact hids (Option.some.inj hboth)
    · by_cases hempty : nodePrefix = ""
      · exact .inr hempty
      · refine .inl ?_
        intro hprefixes
        subst hprefixes
        rcases hbelow with rfl | ⟨hnil, _⟩
        · rcases hbelow' with rfl | ⟨hnil, _⟩
          · exact hids rfl
          · exact hempty hnil
        · exact hempty hnil

/-- Two channels that list one name. -/
def plantCsv : CsvReader where
  read _ _ := .ok {
    columns := ["Tag Name", "Type"]
    rows := [⟨[("Tag Name", .str "Speed.BAL"), ("Type", .str "plc_tags")], by decide⟩,
      ⟨[("Tag Name", .str " Speed"), ("Type", .str "link_tags")], by decide⟩] }

def plantServer : ServerConfig where
  csv_tag_column_name := "Tag Name"
  csv_tag_separator := ","
  csv_filename := "tags/plant.csv"
  tag_channels := ⟨[("plc_tags", "ns=2;s=Plc.Line1"), ("link_tags", "ns=2;s=Link.Line1")],
    by decide⟩

def plcTags : Dict String String := ⟨[("Speed", "ns=2;s=Plc.Line1.Speed")], by decide⟩

def linkTags : Dict String String := ⟨[("Speed", "ns=2;s=Link.Line1.Speed")], by decide⟩

def plantChannels : Dict String (Dict String String) :=
  ⟨[("plc_tags", plcTags), ("link_tags", linkTags)], by decide⟩

/-- A channel whose one row is a tag called `Speed`. -/
theorem channelTags_plant {nodePrefix id : String} {cell : PyValue}
    (hrows : ((plantCsv.read "tags/plant.csv" ",").map fun df =>
      ((df.rows.filter fun row => row.getD "Type" .none = .str channel).map
        fun row => row.getD "Tag Name" .none).filter (· ≠ .none)) = .ok [cell])
    (hname : tagName cell = .ok "Speed") (hnode : nodeId nodePrefix "Speed" = id)
    (hwritten : '_' ∉ id.toList) (hbelow : removePrefix id (nodePrefix ++ ".") = "Speed") :
    channelTags plantCsv plantServer channel nodePrefix = .ok ⟨[("Speed", id)], by simp⟩ := by
  have htags := Except.ok.inj hrows
  have hkept : excludeTags.any (fun exclude => isIn exclude id) = false := by
    simp [excludeTags, isIn_eq_false (p := "_Write") (by decide) hwritten,
      isIn_eq_false (p := "_WRITE") (by decide) hwritten]
  unfold channelTags extractTagsFromCsv
  simp only [plantServer, plantCsv, DataFrame.column, bind, Except.bind, pure,
    Except.pure] at htags ⊢
  rw [htags]
  simp only [List.mapM_cons, List.mapM_nil, hname, bind, Except.bind, pure, Except.pure]
  simp [hnode, hkept, hbelow]
  rfl

theorem tagName_suffixed : tagName (.str "Speed.BAL") = .ok "Speed" := by
  have hstrip : strip "Speed.BAL".toList = "Speed.BAL".toList := by decide
  simp only [tagName, hstrip, removeSuffix, String.ofList_toList]
  rw [if_pos (by decide)]
  rfl

theorem tagName_spaced : tagName (.str " Speed") = .ok "Speed" := by
  have hstrip : strip " Speed".toList = "Speed".toList := by decide
  simp only [tagName, hstrip, removeSuffix, String.ofList_toList]
  rw [if_neg (by decide)]

theorem getChannelTags_plant : getChannelTags plantCsv plantServer = .ok plantChannels := by
  have hplc : channelTags plantCsv plantServer "plc_tags" "ns=2;s=Plc.Line1" = .ok plcTags :=
    channelTags_plant (by decide) tagName_suffixed (by decide) (by decide) (by decide)
  have hlink : channelTags plantCsv plantServer "link_tags" "ns=2;s=Link.Line1" = .ok linkTags :=
    channelTags_plant (by decide) tagName_spaced (by decide) (by decide) (by decide)
  have hitems : plantServer.tag_channels.items =
      [("plc_tags", "ns=2;s=Plc.Line1"), ("link_tags", "ns=2;s=Link.Line1")] := rfl
  unfold getChannelTags
  rw [hitems]
  simp only [List.mapM_cons, List.mapM_nil, hplc, hlink, Except.map, bind, Except.bind, pure,
    Except.pure]
  rfl

def notedAt : Datetime := ⟨⟨2026, 1, 1, 12, 0, 8, 0, by decide⟩, some .utc⟩

theorem storedUnder_plc :
    StoredUnder id plantChannels "plc_tags" "ns=2;s=Plc.Line1.Speed" "Speed" :=
  ⟨plcTags, rfl, .good (.int 7), notedAt, _, rfl, rfl⟩

theorem storedUnder_link :
    StoredUnder id plantChannels "link_tags" "ns=2;s=Link.Line1.Speed" "Speed" :=
  ⟨linkTags, rfl, .good (.int 7), notedAt, _, rfl, rfl⟩

/-- Two nodes are stored under one name. -/
theorem plant_shares_name :
    getChannelTags plantCsv plantServer = .ok plantChannels ∧
    StoredUnder id plantChannels "plc_tags" "ns=2;s=Plc.Line1.Speed" "Speed" ∧
    StoredUnder id plantChannels "link_tags" "ns=2;s=Link.Line1.Speed" "Speed" ∧
    "ns=2;s=Plc.Line1.Speed" ≠ "ns=2;s=Link.Line1.Speed" :=
  ⟨getChannelTags_plant, storedUnder_plc, storedUnder_link, by decide⟩

theorem tag_shared_plant :
    ∃ nodePrefix nodePrefix' nodes nodes' id' id'',
      plantServer.tag_channels.get? "plc_tags" = some nodePrefix ∧
      plantServer.tag_channels.get? "link_tags" = some nodePrefix' ∧
      plantChannels.get? "plc_tags" = some nodes ∧ plantChannels.get? "link_tags" = some nodes' ∧
      ("Speed", id') ∈ nodes.items ∧ ("Speed", id'') ∈ nodes'.items ∧
      id id' = "ns=2;s=Plc.Line1.Speed" ∧ id id'' = "ns=2;s=Link.Line1.Speed" ∧
      ("Speed" = "Speed" ↔ ∃ n, Below nodePrefix n id' ∧ Below nodePrefix' n id'') ∧
      ("Speed" = "Speed" → "plc_tags" ≠ "link_tags" ∧
        (nodePrefix ≠ nodePrefix' ∨ nodePrefix = "")) :=
  tag_shared_iff getChannelTags_plant storedUnder_plc storedUnder_link (by decide)

end KepServerLogger.Ingestor
