import Bearer.Number.Shortest

namespace Bearer.Decimal

def positional (d : Decimal) (whole : String) : String :=
  let chars := d.digitChars
  let zeros (count : Int) := List.replicate count.toNat '0'
  String.ofList <|
    if 0 ≤ d.exponent then chars ++ zeros d.exponent ++ whole.toList
    else if 0 ≤ d.leading then
      let places := (-d.exponent).toNat
      chars.take (chars.length - places) ++ '.' :: chars.drop (chars.length - places)
    else '0' :: '.' :: zeros (-d.leading - 1) ++ chars

def scientific (d : Decimal) : String :=
  let chars := d.digitChars
  let point := if chars.length = 1 then chars else chars.take 1 ++ '.' :: chars.drop 1
  let sign := if d.leading < 0 then '-' else '+'
  String.ofList (point ++ 'e' :: sign :: (toString d.leading.natAbs).toList)

end Bearer.Decimal
