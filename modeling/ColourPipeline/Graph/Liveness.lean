import ColourPipeline.Graph.Network

namespace ColourPipeline

namespace Network

def isHeld (net : Network) (id : StageId) : Bool :=
  (net.find? id).any (0 < ·.handles) || net.remotes.any (·.2.stage == id)

def restrict (keep : StageId → Bool) (net : Network) : Network :=
  { net with
    stages := net.stages.filter (keep ·.id)
    remotes := net.remotes.filter (keep ·.1.stage)
    listings := net.listings.filter (keep ·.1.stage) }

def remove (net : Network) (id : StageId) : Network := net.restrict (· ≠ id)

theorem length_remove_lt {net : Network} {id : StageId} {s : Stage} (h : net.find? id = some s) :
    (net.remove id).stages.length < net.stages.length :=
  List.length_filter_lt_length_iff_exists.2
    ⟨s, List.mem_of_find?_eq_some h, by simpa using List.find?_some h⟩

/-- Frees what has lost its last holder, each stage before those it pulled from. Every entry of
the list stands for one holder that is gone once its turn comes. -/
def collect (net : Network) : List StageId → List Stage × Network
  | [] => ([], net)
  | id :: ids =>
    match _h : net.find? id with
    | none => net.collect ids
    | some s =>
      if net.isHeld id || ids.contains id then net.collect ids
      else
        let (freed, rest) := (net.remove id).collect (net.suppliers id ++ ids)
        (s :: freed, rest)
termination_by ids => (net.stages.length, ids.length)
decreasing_by
  · simp [Prod.lex_def]
  · simp [Prod.lex_def]
  · exact .left _ _ (length_remove_lt _h)

def hold (net : Network) (id : StageId) : Network :=
  net.update (fun s => { s with handles := s.handles + 1 }) id

def drop (net : Network) (id : StageId) : List Stage × Network :=
  (net.update (fun s => { s with handles := s.handles - 1 }) id).collect [id]

def dropAll (net : Network) : List StageId → List Stage × Network
  | [] => ([], net)
  | id :: ids =>
    let (freed, net) := net.drop id
    let (more, net) := net.dropAll ids
    (freed ++ more, net)

end Network

end ColourPipeline
