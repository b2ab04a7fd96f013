import Mathlib.Algebra.Order.Ring.Nat
import Mathlib.Tactic.Common

/-!
# Connection names

`newConnection` names a connection after the server, its address and the running
number `nextConnId_`.  The number is printed into a buffer of 64 bytes, which is
always long enough, so that different numbers give different names.
-/

namespace Lucky

/-- The decimal digits `%d` and `%u` print for a number that is not negative. -/
def decimal (number : Nat) : List Char := Nat.toDigits 10 number

/-- `snprintf` into a buffer of `size` bytes keeps room for the final zero byte. -/
def snprintf (size : Nat) (text : List Char) : List Char := text.take (size - 1)

/-- An IPv4 address with its port. -/
structure Address where
  octets : Fin 4 → Fin 256
  port : Fin 65536

/-- `inet_ntop` for `AF_INET`: the dotted quad. -/
def Address.toIp (address : Address) : List Char :=
  decimal (address.octets 0) ++ '.' :: decimal (address.octets 1) ++
    '.' :: decimal (address.octets 2) ++ '.' :: decimal (address.octets 3)

def Address.toIpPort (address : Address) : List Char :=
  address.toIp ++ ':' :: decimal address.port

/-- The name `newConnection` forms: `name_ + "-ipPort#id"`. -/
def connName (name ipPort : List Char) (nextConnId : Nat) : List Char :=
  name ++ snprintf 64 ('-' :: ipPort ++ '#' :: decimal nextConnId)

theorem decimal_injective {first second : Nat} (same : decimal first = decimal second) :
    first = second := by
  rw [← Nat.ofDigitChars_ten_toDigits (n := first),
    ← Nat.ofDigitChars_ten_toDigits (n := second)]
  exact congrArg (fun digits => Nat.ofDigitChars 10 digits 0) same

theorem length_decimal_le {number count : Nat} (positive : 0 < count)
    (small : number < 10 ^ count) : (decimal number).length ≤ count :=
  (Nat.length_toDigits_le_iff (by decide) positive).mpr small

theorem Address.length_toIpPort_le (address : Address) : address.toIpPort.length ≤ 21 := by
  have octet (position : Fin 4) : (decimal (address.octets position)).length ≤ 3 :=
    length_decimal_le (by decide) (Nat.lt_trans (address.octets position).isLt (by decide))
  have port : (decimal address.port).length ≤ 5 :=
    length_decimal_le (by decide) (Nat.lt_trans address.port.isLt (by decide))
  have first := octet 0
  have second := octet 1
  have third := octet 2
  have fourth := octet 3
  simp only [toIpPort, toIp, List.length_append, List.length_cons]
  omega

/-- The buffer is never too short for a number that fits an `int`. -/
theorem connName_eq (name : List Char) (address : Address) {nextConnId : Nat}
    (small : nextConnId < 2 ^ 31) :
    connName name address.toIpPort nextConnId =
      name ++ ('-' :: address.toIpPort ++ '#' :: decimal nextConnId) := by
  have digits : (decimal nextConnId).length ≤ 10 :=
    length_decimal_le (by decide) (Nat.lt_trans small (by decide))
  have ipPort := address.length_toIpPort_le
  rw [connName, snprintf, List.take_of_length_le]
  simp only [List.length_append, List.length_cons]
  omega

theorem connName_injective (name : List Char) (address : Address) {first second : Nat}
    (firstSmall : first < 2 ^ 31) (secondSmall : second < 2 ^ 31)
    (same : connName name address.toIpPort first = connName name address.toIpPort second) :
    first = second := by
  rw [connName_eq name address firstSmall, connName_eq name address secondSmall] at same
  have tails := List.append_cancel_left (List.append_cancel_left same)
  exact decimal_injective (List.cons.inj tails).2

end Lucky
