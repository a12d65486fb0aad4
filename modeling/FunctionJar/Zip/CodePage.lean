import FunctionJar.Text.Utf8

namespace FunctionJar.Zip

open Text (Bytes)

def upperHalf : List Char :=
  ("ÇüéâäàåçêëèïîìÄÅÉæÆôöòûùÿÖÜ¢£¥₧ƒáíóúñÑªº¿⌐¬½¼¡«»░▒▓│┤╡╢╖╕╣║╗╝╜╛┐└┴┬├─┼╞╟╚╔╩╦╠═╬╧╨╤╥╙╘╒╓╫╪┘┌█▄▌▐▀" ++
    "αßΓπΣσµτΦΘΩδ∞φε∩≡±≥≤⌠⌡÷≈°∙·√ⁿ²■\u00a0").toList

def codePageChar (b : UInt8) : Char :=
  if b < 128 then Char.ofNat b.toNat else upperHalf.getD (b.toNat - 128) ' '

def codePageText (bytes : Bytes) : String := String.ofList (bytes.map codePageChar)

end FunctionJar.Zip
