import DepotClient.Record.Family
import DepotClient.Record.Schema

/-! # The history of a stream

One record holds the whole history: entry `i` under the keys `action0`, `change0` and so on with
index `i`, and its integrations under keys with two indices, `how0,0`, `how0,1`. The history ends
before the first missing `change`, and the integrations of an entry before the first missing
`stream`. -/

namespace DepotClient

/-- An integration from one stream into another. -/
structure Integration where
  /-- The stream that changes came from. -/
  stream : String := ""
  /-- The way in which they were taken over. -/
  how : String := ""
  /-- The field that they belong to. -/
  field : String := ""
  /-- The first change taken over. -/
  startFromChange : Int32 := 0
  /-- The last change taken over. -/
  endFromChange : Int32 := 0
deriving DecidableEq

namespace Integration

instance : Inhabited Integration := ⟨{}⟩

/-- The keys of an integration. -/
def schema : Schema Integration :=
  [("stream", fun v l => { l with stream := v }),
    ("how", fun v l => { l with how := v }),
    ("field", fun v l => { l with field := v }),
    ("startFromChange", fun v l => { l with startFromChange := intValue v }),
    ("endFromChange", fun v l => { l with endFromChange := intValue v })]

/-- The suffix of the keys of an integration: the index of its entry and its own. -/
def suffix (outer inner : Nat) : String :=
  indexText outer ++ String.singleton indexSeparator ++ indexText inner

/-- The integration at an index of a history entry. -/
def decode (r : Record) (outer inner : Nat) : Integration :=
  schema.apply r (suffix outer inner) default

end Integration

/-- An entry of a stream's history. -/
structure HistoryEntry where
  /-- What was done. -/
  action : String := ""
  /-- The changelist that did it. -/
  change : Int32 := 0
  /-- The stream. -/
  stream : String := ""
  /-- The time, in seconds since 1970. -/
  date : Int32 := 0
  /-- Who did it. -/
  user : String := ""
  /-- A changelist that belongs to it. -/
  associatedChange : Int32 := 0
  /-- The workspace. -/
  client : String := ""
  /-- A description for readers. -/
  description : String := ""
  /-- The integrations that were part of it. -/
  integrations : List Integration := []
deriving DecidableEq

namespace HistoryEntry

instance : Inhabited HistoryEntry := ⟨{}⟩

/-- The keys of a history entry. -/
def schema : Schema HistoryEntry :=
  [("action", fun v l => { l with action := v }),
    ("change", fun v l => { l with change := intValue v }),
    ("stream", fun v l => { l with stream := v }),
    ("time", fun v l => { l with date := intValue v }),
    ("user", fun v l => { l with user := v }),
    ("client", fun v l => { l with client := v }),
    ("associatedChange", fun v l => { l with associatedChange := intValue v }),
    ("desc", fun v l => { l with description := v })]

/-- The history entry at an index. -/
def decode (r : Record) (i : Nat) : HistoryEntry :=
  { schema.apply r (indexText i) default with
    integrations := (List.range (r.innerFamily "stream" i).length).map (Integration.decode r i) }

/-- The whole history in a record. -/
def decodeAll (r : Record) : List HistoryEntry :=
  (List.range (r.familyLength "change")).map (decode r)

end HistoryEntry

end DepotClient
