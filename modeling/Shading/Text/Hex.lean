namespace Shading

/-!
# Hexadecimal numerals
-/

/-- `n` in lower case hexadecimal after `0x`, filled up with zeros to `digits` digits. -/
def hex (digits n : Nat) : String :=
  let text := Nat.toDigits 16 n
  "0x" ++ String.ofList (List.replicate (digits - text.length) '0' ++ text)

end Shading
