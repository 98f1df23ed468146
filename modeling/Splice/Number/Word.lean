/-!
# Words

How many values a word of a fixed width has, and how many of them are not negative where one bit is
the sign.
-/

namespace Splice.Word

/-- The number of values of 32 bits. -/
def count32 : Nat := 4294967296

/-- The number of values of 64 bits. -/
def count64 : Nat := 18446744073709551616

/-- The number of values of 31 bits. -/
def half32 : Nat := 2147483648

/-- The number of values of 63 bits. -/
def half64 : Nat := 9223372036854775808

end Splice.Word
