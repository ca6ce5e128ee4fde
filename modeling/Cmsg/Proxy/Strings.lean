import Cmsg.Base.Bytes

/-! # Strings of the proxy -/
namespace Cmsg.Proxy
open Cmsg.Base

/-- A string literal of the source. -/
def cstr (s : String) : CString := s.toList.map fun c => c.toNat.toUInt8

/-- The tokens that `strtok_r` finds one after another. -/
def strtok (delim : UInt8) (s : CString) : List CString :=
  (s.splitOn delim).filter fun token => !token.isEmpty

/-- Whether `strstr` finds the needle. -/
def strstr (haystack needle : CString) : Bool := haystack.tails.any (needle.isPrefixOf ·)

/-- What stands before and after the last occurrence of the character, as
`strrchr` finds it. -/
def cutLast (c : UInt8) : CString → Option (CString × CString)
  | [] => none
  | b :: s =>
    match cutLast c s with
    | some (before, after) => some (b :: before, after)
    | none => if b == c then some ([], s) else none

/-- `{`, `}`, `/`, `&`, `=` and `_`. -/
def openBrace : UInt8 := 0x7b
def closeBrace : UInt8 := 0x7d
def slash : UInt8 := 0x2f
def ampersand : UInt8 := 0x26
def equalsSign : UInt8 := 0x3d
def underscore : UInt8 := 0x5f

end Cmsg.Proxy
