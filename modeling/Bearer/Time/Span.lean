import Bearer.Text.Digits
import Bearer.Time.Instant

namespace Bearer

def Span.fraction (nanos : Nat) : List Char :=
  if nanos = 0 then []
  else '.' :: ((Text.padded 9 nanos).reverse.dropWhile (· == '0')).reverse

def Span.text (span : Span) : String :=
  let size := span.nanos.natAbs
  let sign := if span.nanos < 0 then "-" else ""
  if size = 0 then "P0D"
  else
    sign ++ s!"PT{size / 1000000000}" ++ String.ofList (fraction (size % 1000000000)) ++ "S"

end Bearer
