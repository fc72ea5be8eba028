import ApiDocs.Fault

/-!
# Bytes as they are written

Bytes are written in base 64: four characters for three of them, of which the last ones are equals signs
where bytes are missing. Characters that do not belong there are passed over.

* `readBytes`: the bytes that a text writes.
-/

namespace ApiDocs.Yaml

/-- The number that a character stands for in base 64. -/
def sextet? (c : Char) : Option Nat :=
  if 'A' ≤ c && c ≤ 'Z' then some (c.toNat - 0x41)
  else if 'a' ≤ c && c ≤ 'z' then some (c.toNat - 0x61 + 26)
  else if '0' ≤ c && c ≤ '9' then some (c.toNat - 0x30 + 52)
  else if c == '+' then some 62
  else if c == '/' then some 63
  else none

/-- How far a group of four characters is read: their number, the bits of the last one that are left over, and
the equals signs behind it. -/
structure Group where
  count : Nat := 0
  bits : Nat := 0
  pads : Nat := 0

/-- A group with one more character, and the byte that is complete with it. -/
def Group.push (g : Group) (n : Nat) : Group × List UInt8 :=
  match g.count with
  | 0 => ({ count := 1, bits := n }, [])
  | 1 => ({ count := 2, bits := n % 16 }, [UInt8.ofNat (g.bits * 4 + n / 16)])
  | 2 => ({ count := 3, bits := n % 4 }, [UInt8.ofNat (g.bits * 16 + n / 4)])
  | _ => ({}, [UInt8.ofNat (g.bits * 64 + n)])

/-- The bytes that some characters write. They end where equals signs fill up a group, and must not end
within a group otherwise. -/
def bytesFrom (g : Group) : List Char → Option (List UInt8)
  | [] => if g.count == 0 then some [] else none
  | c :: cs =>
    if c == '=' then
      if 2 ≤ g.count then
        if 4 ≤ g.count + g.pads + 1 then some [] else bytesFrom { g with pads := g.pads + 1 } cs
      else bytesFrom g cs
    else
      match sextet? c with
      | none => bytesFrom g cs
      | some n => (bytesFrom (g.push n).1 cs).map ((g.push n).2 ++ ·)

/-- The bytes that a text of ASCII characters writes. -/
def readBytes (cs : List Char) : Except Fault (List UInt8) :=
  match if cs.all (·.toNat < 0x80) then bytesFrom {} cs else none with
  | some bytes => .ok bytes
  | none => .error .malformedDocument

end ApiDocs.Yaml
