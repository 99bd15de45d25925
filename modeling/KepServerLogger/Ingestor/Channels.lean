import KepServerLogger.Ingestor.Ingest

/-!
# Tag channels (lib/tag_extractor.py, ingestor/src/channels.py)

A server's CSV lists its tags, each with the channel it belongs to. For each
channel the node ids are made by putting the prefix of the channel in front,
and what the tag is stored under is made by taking it off again.

A subscription is told which node an item belongs to by the text of the node
id, which `get_node` may write in another way than the configuration does. It
remembers the name of each text, and a notification looks it up.
-/

namespace KepServerLogger.Ingestor

open KepServerLogger.Py KepServerLogger.Lib

/-- A CSV file as pandas returns it; a blank cell is `none`. -/
structure DataFrame where
  columns : List String
  rows : List (Dict String PyValue)

/-- `df[column]` -/
def DataFrame.column (df : DataFrame) (column : String) : Except Exc Unit :=
  if column ∈ df.columns then .ok () else .error ⟨.keyError, "'" ++ column ++ "'"⟩

/-- The part of a server's configuration that its tags are read with. -/
structure ServerConfig where
  csv_tag_column_name : String
  csv_tag_separator : String
  csv_filename : String
  /-- Channel → prefix. -/
  tag_channels : Dict String String

/-- `tag.strip().removesuffix(".BAL")`; only a string can be stripped. -/
def tagName : PyValue → Except Exc String
  | .str s => .ok (removeSuffix (String.ofList (strip s.toList)) ".BAL")
  | _ => .error ⟨.other, "object has no attribute 'strip'"⟩

/-- `prefix + "." + tag`, if there is a prefix. -/
def nodeId (nodePrefix tag : String) : String :=
  if nodePrefix = "" then tag else nodePrefix ++ "." ++ tag

section

/-- What `pd.read_csv` returns for a file and a separator. -/
structure CsvReader where
  read : String → String → Except Exc DataFrame

variable (pandas : CsvReader)

def extractTagsFromCsv (nodePrefix type_filter separator : String) (exclude_tags : List String)
    (tag_column type_column filename : String) : Except Exc (List String) := do
  let df ← pandas.read filename separator
  df.column type_column
  df.column tag_column
  let tags := ((df.rows.filter fun row => row.getD type_column .none = .str type_filter).map
    fun row => row.getD tag_column .none).filter (· ≠ .none)
  let names ← tags.mapM tagName
  return (names.map (nodeId nodePrefix)).filter fun tag =>
    !exclude_tags.any fun exclude => isIn exclude tag

def excludeTags : List String := ["_Write", "_WRITE"]

/-- One turn of the loop over the channels. -/
def channelTags (server : ServerConfig) (channel nodePrefix : String) :
    Except Exc (Dict String String) := do
  let node_ids ← extractTagsFromCsv pandas nodePrefix channel server.csv_tag_separator excludeTags
    server.csv_tag_column_name "Type" server.csv_filename
  return Dict.ofList (node_ids.map fun n => (removePrefix n (nodePrefix ++ "."), n))

/-- Channel → {tag name: node id}. -/
def getChannelTags (server : ServerConfig) : Except Exc (Dict String (Dict String String)) := do
  let channels ← server.tag_channels.items.mapM fun p =>
    (channelTags pandas server p.1 p.2).map fun tags => (p.1, tags)
  return Dict.ofList channels

end

/-! ## Subscriptions -/

section

/- `client.get_node(node_id).nodeid.to_string()` -/
variable (nodeText : String → String)

/-- `NodeSubscription._keys` of a subscription that has started. -/
def subscriptionKeys (nodes : Dict String String) : Dict String String :=
  Dict.ofList (nodes.items.map fun p => (nodeText p.2, p.1))

/-- The row that a notification of a node becomes, if the channel has the
node. -/
def notifiedRow (nodes : Dict String String) (node : String) (dataValue : DataValue)
    (receivedAt : Datetime) : Option Row :=
  match (subscriptionKeys nodeText nodes).get? node with
  | none => none
  | some key =>
      match Ingest.new.addTag key dataValue receivedAt with
      | .ok s => (s.pending.rows "tags").head?
      | .error _ => none

/-- Some notification of the node, as one of the channel's, is stored under
the name. -/
def StoredUnder (channels : Dict String (Dict String String)) (channel node name : String) :
    Prop :=
  ∃ nodes, channels.get? channel = some nodes ∧ ∃ dataValue receivedAt row,
    notifiedRow nodeText nodes node dataValue receivedAt = some row ∧
      row.get? "tag" = some (.str name)

end

end KepServerLogger.Ingestor
