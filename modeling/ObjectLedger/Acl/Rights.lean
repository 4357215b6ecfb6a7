/-! # Access rights

A set of rights is a 16-bit word with one bit for each right. Only the seven low
bits name rights; the other bits can arrive from outside and are kept as they are.
-/

namespace ObjectLedger

/-- A set of access rights. -/
structure Rights where
  bits : UInt16
deriving DecidableEq, Repr

namespace Rights

def empty : Rights := ⟨0⟩

def read : Rights := ⟨0x01⟩

def write : Rights := ⟨0x02⟩

def create : Rights := ⟨0x04⟩

def list : Rights := ⟨0x08⟩

def delete : Rights := ⟨0x10⟩

def readAcl : Rights := ⟨0x20⟩

def writeAcl : Rights := ⟨0x40⟩

/-- Every right that has a name. -/
def all : Rights := ⟨0x7f⟩

/-- The named rights among the bits of a word. -/
def ofBits (bits : UInt16) : Rights := ⟨bits &&& all.bits⟩

def isEmpty (rights : Rights) : Bool := rights.bits == 0

/-- Whether all the other rights are in the set. -/
def contains (rights other : Rights) : Bool := rights.bits &&& other.bits == other.bits

/-- Whether one of the other rights is in the set. -/
def intersects (rights other : Rights) : Bool := rights.bits &&& other.bits != 0

def union (rights other : Rights) : Rights := ⟨rights.bits ||| other.bits⟩

/-- The rights of a set that are not in the other. -/
def difference (rights other : Rights) : Rights := ⟨rights.bits &&& ~~~other.bits⟩

/-- The letters of the named rights, in the order in which they are written. -/
def letters : List (Char × Rights) :=
  [('r', read), ('w', write), ('c', create), ('l', list), ('d', delete), ('x', readAcl),
    ('y', writeAcl)]

end Rights

end ObjectLedger
