import ColourPipeline.Cache.Entity
import ColourPipeline.Cache.Key
import ColourPipeline.Table

namespace ColourPipeline

abbrev SlotId := Nat

structure CacheSlot where
  key : CacheKey
  entry : Option Entity := none
  handles : Nat := 0
deriving DecidableEq

structure Directory where
  filed : Table CacheKey SlotId := []
  hits : Nat := 0
  misses : Nat := 0
deriving DecidableEq

/-- A directory with all slots there ever were, those of other directories included. Numbers of
slots and entities are not used again. -/
structure ObjectCache where
  slots : List CacheSlot := []
  directory : Directory := {}
  issued : Nat := 0
deriving DecidableEq

namespace ObjectCache

def size (c : ObjectCache) : Nat := c.directory.filed.length

def isEmpty (c : ObjectCache) : Bool := c.directory.filed.isEmpty

def filed? (c : ObjectCache) (k : CacheKey) : Option SlotId := c.directory.filed.lookup k

def entry? (c : ObjectCache) (id : SlotId) : Option Entity := c.slots[id]?.bind (·.entry)

def update (f : CacheSlot → CacheSlot) (id : SlotId) (c : ObjectCache) : ObjectCache :=
  { c with slots := c.slots.modify id f }

def hold (c : ObjectCache) (id : SlotId) : ObjectCache :=
  c.update (fun s => { s with handles := s.handles + 1 }) id

def drop (c : ObjectCache) (id : SlotId) : ObjectCache :=
  c.update (fun s => { s with handles := s.handles - 1 }) id

def countHit (c : ObjectCache) : ObjectCache :=
  { c with directory := { c.directory with hits := c.directory.hits + 1 } }

def file (c : ObjectCache) (k : CacheKey) : ObjectCache :=
  { c with
    slots := c.slots ++ [{ key := k }]
    directory := { c.directory with
      filed := c.directory.filed.put k c.slots.length
      misses := c.directory.misses + 1 } }

def lookup (text : String) (c : ObjectCache) : SlotId × ObjectCache :=
  let k := CacheKey.ofText text
  match c.filed? k with
  | some id => (id, c.countHit.hold id)
  | none => (c.slots.length, (c.file k).hold c.slots.length)

def fresh (c : ObjectCache) : Nat × ObjectCache := (c.issued, { c with issued := c.issued + 1 })

def kept (e : Entity) (c : ObjectCache) : Entity × ObjectCache :=
  if e.content.isCopied then
    let (id, c) := c.fresh
    (e.copy id, c)
  else (e, c)

def set (id : SlotId) (e : Entity) (c : ObjectCache) : ObjectCache :=
  let (e, c) := c.kept e
  c.update (fun s => { s with entry := some e }) id

def get? (c : ObjectCache) (id : SlotId) (kind : ObjectKind) : Option Entity :=
  (c.entry? id).filter (·.envelope.kind == kind)

def evict (id : SlotId) (k : CacheKey) (c : ObjectCache) : ObjectCache :=
  { c.update (fun s => { s with entry := none, handles := 0 }) id with
    directory := { c.directory with filed := c.directory.filed.remove k } }

def lastOf (c : ObjectCache) (id : SlotId) (s : CacheSlot) : Bool :=
  c.filed? s.key == some id && s.handles ≤ 1

def release (id : SlotId) (c : ObjectCache) : Bool × ObjectCache :=
  match c.slots[id]? with
  | some s => if c.lastOf id s then (true, c.evict id s.key) else (false, c.drop id)
  | none => (false, c)

def clear (c : ObjectCache) : ObjectCache :=
  { c with directory := { c.directory with filed := [] } }

end ObjectCache

end ColourPipeline
