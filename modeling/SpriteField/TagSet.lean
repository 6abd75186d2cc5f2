import SpriteField.Hex

/-!
# Sets of tags

A set of tag numbers below 256, kept as four words of sixty-four bits.  Tag `t` is bit `t % 64` of
word `t / 64`.
-/

namespace SpriteField

def tagCount : Nat := 256

structure TagSet where
  words : Vector UInt64 4
deriving DecidableEq

namespace TagSet

def empty : TagSet := ⟨Vector.replicate 4 0⟩

instance : Inhabited TagSet where
  default := empty

/-- The word with only bit `t % 64` set. -/
def mask (tag : Nat) : UInt64 :=
  1 <<< UInt64.ofNat (tag % 64)

def word (s : TagSet) (i : Nat) : UInt64 :=
  s.words.toArray.getD i 0

/-- Turns a tag on or off.  Numbers that are not tags change nothing. -/
def set (s : TagSet) (tag : Nat) (on : Bool) : TagSet :=
  let old := s.word (tag / 64)
  let new := if on then old ||| mask tag else old &&& ~~~mask tag
  ⟨s.words.setIfInBounds (tag / 64) new⟩

/-- Numbers that are not tags are in no set. -/
def contains (s : TagSet) (tag : Nat) : Bool :=
  s.word (tag / 64) &&& mask tag != 0

def ofList (tags : List Nat) : TagSet :=
  tags.foldl (fun s tag => s.set tag true) empty

/-- Every tag of `required` is in `s`. -/
def containsAll (s required : TagSet) : Bool :=
  (s.words.zip required.words).all fun (held, wanted) => held &&& wanted == wanted

def isEmpty (s : TagSet) : Bool :=
  s.words.all (· == 0)

/-- The positions of the bits set in a word, in ascending order. -/
def bits (word : UInt64) : List Nat :=
  if word == 0 then []
  else (List.range 64).filter fun bit => word &&& mask bit != 0

def size (s : TagSet) : Nat :=
  (s.words.toList.map fun word => (bits word).length).foldl (· + ·) 0

/-- The tags of the set in ascending order. -/
def toList (s : TagSet) : List Nat :=
  (List.range 4).flatMap fun i => (bits (s.word i)).map (i * 64 + ·)

/-- One hexadecimal number, the most significant word first. -/
def text (s : TagSet) : String :=
  "0x" ++ String.join (s.words.toList.reverse.map fun word => hexText 16 word.toNat)

instance : ToString TagSet where
  toString := text

end TagSet

end SpriteField
