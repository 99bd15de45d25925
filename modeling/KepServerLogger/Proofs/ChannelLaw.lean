import KepServerLogger.Proofs.TagNames

/-!
# Which tags of a channel are logged

A tag is left out when its name says that it is for writing. What is searched
for that is the node id, so a prefix that contains such a word leaves out
every tag of its channel. And what is taken off a node id again is the prefix
and a dot, which for the empty prefix is a dot of the name itself.
-/

namespace KepServerLogger.Ingestor

open KepServerLogger.Py KepServerLogger.Lib

variable {pandas : CsvReader} {server : ServerConfig} {df : DataFrame}
  {channel nodePrefix name id : String} {names : List String}

/-- Every cell is a text or missing. -/
def DataFrame.HasTextCells (df : DataFrame) : Prop :=
  ∀ row ∈ df.rows, ∀ column, row.getD column .none = .none ∨ ∃ s, row.getD column .none = .str s

/-- The tag without the spaces around it and without one `.BAL` at its end. -/
def bareName (tag : String) : String := removeSuffix (String.ofList (strip tag.toList)) ".BAL"

/-- The name in a row of the channel whose tag is not blank. -/
def nameInRow (tag_column channel : String) (row : Dict String PyValue) : Option String :=
  if row.getD "Type" .none = .str channel then
    match row.getD tag_column .none with
    | .str tag => some (bareName tag)
    | _ => none
  else none

def DataFrame.tagNames (df : DataFrame) (tag_column channel : String) : List String :=
  df.rows.filterMap (nameInRow tag_column channel)

def isExcluded (s : String) : Bool := excludeTags.any fun exclude => isIn exclude s

/-- The names that contain neither word. -/
def keptNames (names : List String) : List String := names.filter fun name => !isExcluded name

/-! ## What is read -/

theorem mapM_tagName (tag_column channel : String) {rows : List (Dict String PyValue)}
    (hcells : ∀ row ∈ rows, ∀ column,
      row.getD column .none = .none ∨ ∃ s, row.getD column .none = .str s) :
    (((rows.filter fun row => row.getD "Type" .none = .str channel).map
      fun row => row.getD tag_column .none).filter (· ≠ .none)).mapM tagName =
        .ok (rows.filterMap (nameInRow tag_column channel)) := by
  induction rows with
  | nil => rfl
  | cons row rows ih =>
      have hrest := ih fun r hr => hcells r (List.mem_cons_of_mem _ hr)
      by_cases htype : row.getD "Type" .none = .str channel
      · rw [List.filter_cons_of_pos (by simpa using htype), List.map_cons]
        rcases hcells row List.mem_cons_self tag_column with hnone | ⟨tag, htag⟩
        · have hname : nameInRow tag_column channel row = none := by
            rw [nameInRow, if_pos htype, hnone]
          rw [hnone, List.filter_cons_of_neg (by simp), List.filterMap_cons_none hname]
          exact hrest
        · have hname : nameInRow tag_column channel row = some (bareName tag) := by
            rw [nameInRow, if_pos htype, htag]
          rw [htag, List.filter_cons_of_pos (by simp), List.mapM_cons, hrest,
            List.filterMap_cons_some hname]
          rfl
      · have hname : nameInRow tag_column channel row = none := by rw [nameInRow, if_neg htype]
        rw [List.filter_cons_of_neg (by simpa using htype), List.filterMap_cons_none hname]
        exact hrest

/-- The node ids of a channel with these names. -/
def nodeIds (nodePrefix : String) (names : List String) : List String :=
  (names.map (nodeId nodePrefix)).filter fun id => !isExcluded id

/-- What a channel with these names becomes. -/
def tagsOf (nodePrefix : String) (names : List String) : Dict String String :=
  Dict.ofList ((nodeIds nodePrefix names).map fun n => (removePrefix n (nodePrefix ++ "."), n))

theorem column_of_mem {column : String} (h : column ∈ df.columns) :
    df.column column = .ok () := if_pos h

theorem channelTags_eq
    (hread : pandas.read server.csv_filename server.csv_tag_separator = .ok df)
    (htype : "Type" ∈ df.columns) (htag : server.csv_tag_column_name ∈ df.columns)
    (hcells : df.HasTextCells) (channel nodePrefix : String) :
    channelTags pandas server channel nodePrefix =
      .ok (tagsOf nodePrefix (df.tagNames server.csv_tag_column_name channel)) := by
  unfold channelTags extractTagsFromCsv
  simp only [hread, column_of_mem htype, column_of_mem htag, bind, Except.bind]
  rw [mapM_tagName _ _ hcells]
  rfl

theorem getChannelTags_eq
    (hread : pandas.read server.csv_filename server.csv_tag_separator = .ok df)
    (htype : "Type" ∈ df.columns) (htag : server.csv_tag_column_name ∈ df.columns)
    (hcells : df.HasTextCells) (hchannel : server.tag_channels.get? channel = some nodePrefix) :
    ∃ channels, getChannelTags pandas server = .ok channels ∧
      channels.get? channel =
        some (tagsOf nodePrefix (df.tagNames server.csv_tag_column_name channel)) := by
  have hturn : ∀ p ∈ server.tag_channels.items,
      ((channelTags pandas server p.1 p.2).map fun tags => (p.1, tags)) =
        .ok (p.1, tagsOf p.2 (df.tagNames server.csv_tag_column_name p.1)) := by
    intro p _
    rw [channelTags_eq hread htype htag hcells]
    rfl
  have hmapM := mapM_ok hturn
  have hget : getChannelTags pandas server = .ok (Dict.ofList (server.tag_channels.items.map
      fun p => (p.1, tagsOf p.2 (df.tagNames server.csv_tag_column_name p.1)))) := by
    unfold getChannelTags
    rw [hmapM]
    rfl
  have hmem := Dict.get?_eq_some.mp hchannel
  have hkey : channel ∈ (server.tag_channels.items.map
      fun p => (p.1, tagsOf p.2 (df.tagNames server.csv_tag_column_name p.1))).map Prod.fst := by
    rw [List.map_map]
    exact List.mem_map.mpr ⟨_, hmem, rfl⟩
  obtain ⟨tags, htags, hchannels⟩ := Dict.get?_ofList_of_mem hkey
  obtain ⟨⟨c, p⟩, hp, heq⟩ := List.mem_map.mp htags
  obtain ⟨rfl, rfl⟩ := Prod.mk.inj heq
  cases (Dict.get?_eq_some.mpr hp).symm.trans hchannel
  exact ⟨_, hget, hchannels⟩

/-! ## The law -/

/-- The map is from each name kept to its node id. -/
def LogsNames (nodePrefix : String) (names : List String) (nodes : Dict String String) : Prop :=
  ∀ name id, nodes.get? name = some id ↔ name ∈ keptNames names ∧ id = nodeId nodePrefix name

/-- Below the empty prefix no name that is kept begins with a dot, and where the
prefix contains one of the words no name is kept. -/
def PrefixHarmless (nodePrefix : String) (names : List String) : Prop :=
  (nodePrefix = "" → ∀ name ∈ keptNames names, ¬ ".".toList <+: name.toList) ∧
    (isExcluded nodePrefix = true → keptNames names = [])

theorem isExcluded_nodeId (hne : nodePrefix ≠ "") (name : String) :
    isExcluded (nodeId nodePrefix name) = (isExcluded nodePrefix || isExcluded name) := by
  rw [nodeId, if_neg hne]
  unfold isExcluded excludeTags
  simp only [List.any_cons, List.any_nil, Bool.or_false]
  rw [isIn_joined (w := "_Write") (by decide), isIn_joined (w := "_WRITE") (by decide)]
  ac_rfl

theorem isExcluded_empty : isExcluded "" = false := by decide

theorem nodeIds_of_ne (hne : nodePrefix ≠ "") (names : List String) :
    nodeIds nodePrefix names =
      if isExcluded nodePrefix then [] else (keptNames names).map (nodeId nodePrefix) := by
  unfold nodeIds keptNames
  rw [List.filter_map]
  split
  · next hexcluded =>
      have hnone : names.filter ((fun id => !isExcluded id) ∘ nodeId nodePrefix) = [] := by
        refine List.filter_eq_nil_iff.mpr fun name _ => ?_
        simp [isExcluded_nodeId hne, hexcluded]
      rw [hnone, List.map_nil]
  · next hkept =>
      refine congrArg _ (List.filter_congr fun name _ => ?_)
      simp [isExcluded_nodeId hne, hkept]

theorem logsNames_of_pairs {l : List (String × String)}
    (hl : l = (keptNames names).map fun name => (name, nodeId nodePrefix name)) :
    LogsNames nodePrefix names (Dict.ofList l) := by
  intro name id
  have hvalues : ∀ p ∈ l, p.2 = nodeId nodePrefix p.1 := by
    intro p hp
    rw [hl] at hp
    obtain ⟨name, -, rfl⟩ := List.mem_map.mp hp
    rfl
  rw [Dict.get?_ofList_iff hvalues, hl, List.map_map]
  exact Iff.and (by rw [List.mem_map]; exact ⟨fun ⟨n, hn, heq⟩ => heq ▸ hn, fun h => ⟨name, h, rfl⟩⟩)
    Iff.rfl

theorem logsNames_iff (nodePrefix : String) (names : List String) :
    LogsNames nodePrefix names (tagsOf nodePrefix names) ↔ PrefixHarmless nodePrefix names := by
  unfold tagsOf
  by_cases hne : nodePrefix = ""
  · subst hne
    have hids : nodeIds "" names = keptNames names := by
      have hself : (nodeId "" : String → String) = id := rfl
      rw [nodeIds, hself, List.map_id]
      rfl
    rw [hids]
    constructor
    · intro hlogs
      refine ⟨fun _ name hname hdot => ?_, fun h => (by cases isExcluded_empty.symm.trans h)⟩
      have hmem := Dict.mem_of_get?_ofList ((hlogs name name).mpr ⟨hname, rfl⟩)
      obtain ⟨n, -, heq⟩ := List.mem_map.mp hmem
      obtain ⟨hremoved, rfl⟩ := Prod.mk.inj heq
      have hlength := congrArg (fun s : String => s.toList.length) hremoved
      rw [removePrefix, if_pos (by simpa using hdot)] at hlength
      have hpos := hdot.length_le
      simp at hlength hpos
      omega
    · intro hharmless
      refine logsNames_of_pairs (List.map_congr_left fun name hname => ?_)
      have hdot : ¬ ("" ++ ".").toList <+: name.toList := hharmless.1 rfl name hname
      rw [removePrefix_of_not hdot]
      rfl
  · rw [nodeIds_of_ne hne]
    split
    · next hexcluded =>
        constructor
        · intro hlogs
          refine ⟨fun h => absurd h hne, fun _ => List.eq_nil_iff_forall_not_mem.mpr ?_⟩
          intro name hname
          cases (hlogs name _).mpr ⟨hname, rfl⟩
        · intro hharmless name id
          rw [hharmless.2 hexcluded]
          exact ⟨fun h => (by cases h), fun h => absurd h.1 List.not_mem_nil⟩
    · next hkept =>
        refine iff_of_true (logsNames_of_pairs ?_)
          ⟨fun h => absurd h hne, fun h => absurd h hkept⟩
        rw [List.map_map]
        refine List.map_congr_left fun name _ => ?_
        have hremoved : removePrefix (nodeId nodePrefix name) (nodePrefix ++ ".") = name := by
          rw [nodeId, if_neg hne, removePrefix_append]
        rw [Function.comp_apply, hremoved]

/-- A channel logs the tags that the names say exactly if its prefix is
harmless. -/
theorem channel_logsNames_iff
    (hread : pandas.read server.csv_filename server.csv_tag_separator = .ok df)
    (htype : "Type" ∈ df.columns) (htag : server.csv_tag_column_name ∈ df.columns)
    (hcells : df.HasTextCells) (hchannel : server.tag_channels.get? channel = some nodePrefix) :
    (∃ channels nodes, getChannelTags pandas server = .ok channels ∧
      channels.get? channel = some nodes ∧
      LogsNames nodePrefix (df.tagNames server.csv_tag_column_name channel) nodes) ↔
    PrefixHarmless nodePrefix (df.tagNames server.csv_tag_column_name channel) := by
  rw [← logsNames_iff]
  obtain ⟨channels, hget, hnodes⟩ := getChannelTags_eq hread htype htag hcells hchannel
  constructor
  · intro h
    obtain ⟨channels', nodes, hget', hnodes', hlogs⟩ := h
    cases hget.symm.trans hget'
    cases hnodes.symm.trans hnodes'
    exact hlogs
  · exact fun hlogs => ⟨channels, _, hget, hnodes, hlogs⟩

/-! ## A prefix with a word in it -/

def pumpFrame : DataFrame where
  columns := ["Tag Name", "Type"]
  rows := [⟨[("Tag Name", .str "Flow.BAL"), ("Type", .str "plc_tags")], by decide⟩]

def pumpCsv : CsvReader where
  read _ _ := .ok pumpFrame

/-- The word is in the prefix of the channel, not in a tag. -/
def pumpServer : ServerConfig where
  csv_tag_column_name := "Tag Name"
  csv_tag_separator := ","
  csv_filename := "tags/pumps.csv"
  tag_channels := ⟨[("plc_tags", "ns=2;s=Plc_Write")], by decide⟩

theorem pumpFrame_hasTextCells : pumpFrame.HasTextCells := by
  intro row hrow column
  obtain rfl := List.mem_singleton.mp hrow
  rw [Dict.getD]
  cases hcell : Dict.get? _ column with
  | none => exact .inl rfl
  | some v =>
      rcases List.mem_cons.mp (Dict.get?_eq_some.mp hcell) with heq | hmem
      · cases heq
        exact .inr ⟨_, rfl⟩
      · cases List.mem_singleton.mp hmem
        exact .inr ⟨_, rfl⟩

theorem bareName_flow : bareName "Flow.BAL" = "Flow" := by
  have hstrip : strip "Flow.BAL".toList = "Flow.BAL".toList := by decide
  simp only [bareName, hstrip, removeSuffix, String.ofList_toList]
  rw [if_pos (by decide)]
  rfl

theorem pumpFrame_tagNames : pumpFrame.tagNames "Tag Name" "plc_tags" = ["Flow"] := by
  have hrow : nameInRow "Tag Name" "plc_tags"
      ⟨[("Tag Name", .str "Flow.BAL"), ("Type", .str "plc_tags")], by decide⟩ =
        some (bareName "Flow.BAL") := rfl
  rw [DataFrame.tagNames, pumpFrame, List.filterMap_cons_some hrow, bareName_flow,
    List.filterMap_nil]

theorem keptNames_flow : keptNames ["Flow"] = ["Flow"] := by
  have hkept : isExcluded "Flow" = false := by
    have hword : '_' ∉ "Flow".toList := by decide
    simp [isExcluded, excludeTags, isIn_eq_false (p := "_Write") (by decide) hword,
      isIn_eq_false (p := "_WRITE") (by decide) hword]
  simp [keptNames, hkept]

theorem isExcluded_pumpPrefix : isExcluded "ns=2;s=Plc_Write" = true := by
  have hword : isIn "_Write" "ns=2;s=Plc_Write" = true :=
    isIn_iff_infix.mpr ⟨"ns=2;s=Plc".toList, [], by decide⟩
  rw [isExcluded, excludeTags, List.any_cons, hword, Bool.true_or]

/-- The tag is not one for writing, and the channel logs nothing. -/
theorem pump_logs_nothing :
    keptNames (pumpFrame.tagNames "Tag Name" "plc_tags") = ["Flow"] ∧
      (∃ channels, getChannelTags pumpCsv pumpServer = .ok channels ∧
        channels.get? "plc_tags" = some ∅) ∧
      ¬ ∃ channels nodes, getChannelTags pumpCsv pumpServer = .ok channels ∧
        channels.get? "plc_tags" = some nodes ∧
        LogsNames "ns=2;s=Plc_Write" (pumpFrame.tagNames "Tag Name" "plc_tags") nodes := by
  have hread : pumpCsv.read pumpServer.csv_filename pumpServer.csv_tag_separator =
      .ok pumpFrame := rfl
  have hchannel : pumpServer.tag_channels.get? "plc_tags" = some "ns=2;s=Plc_Write" := rfl
  obtain ⟨channels, hget, hnodes⟩ :=
    getChannelTags_eq hread (by decide) (by decide) pumpFrame_hasTextCells hchannel
  have hnone : tagsOf "ns=2;s=Plc_Write"
      (pumpFrame.tagNames pumpServer.csv_tag_column_name "plc_tags") = ∅ := by
    rw [tagsOf, nodeIds_of_ne (by decide), if_pos isExcluded_pumpPrefix]
    rfl
  rw [hnone] at hnodes
  rw [pumpFrame_tagNames]
  refine ⟨keptNames_flow, ⟨channels, hget, hnodes⟩, ?_⟩
  intro h
  obtain ⟨channels', nodes, hget', hnodes', hlogs⟩ := h
  cases hget.symm.trans hget'
  cases hnodes.symm.trans hnodes'
  have hflow := (hlogs "Flow" _).mpr ⟨by rw [keptNames_flow]; exact List.mem_cons_self, rfl⟩
  cases hflow

theorem channel_logsNames_pump :
    (∃ channels nodes, getChannelTags pumpCsv pumpServer = .ok channels ∧
      channels.get? "plc_tags" = some nodes ∧
      LogsNames "ns=2;s=Plc_Write" (pumpFrame.tagNames "Tag Name" "plc_tags") nodes) ↔
    PrefixHarmless "ns=2;s=Plc_Write" (pumpFrame.tagNames "Tag Name" "plc_tags") := by
  have hread : pumpCsv.read pumpServer.csv_filename pumpServer.csv_tag_separator =
      .ok pumpFrame := rfl
  exact channel_logsNames_iff hread (by decide) (by decide) pumpFrame_hasTextCells rfl

end KepServerLogger.Ingestor
