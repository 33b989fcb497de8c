import Handoff.Text.Utf8
/-!
# Byte texts

Texts with one character for each byte, which is how programs that know no encoding
take their arguments and files.  On ASCII such a text is the text itself.
-/

namespace Handoff.Text

def byteText (bytes : ByteArray) : String :=
  String.ofList (bytes.data.toList.map fun byte => Char.ofNat byte.toNat)

def bytesOf (text : String) : ByteArray :=
  text.toList.foldl (fun bytes c => bytes.push (UInt8.ofNat c.toNat)) ByteArray.empty

/-- The byte text of the encoding of `text`. -/
def spelled (text : String) : String :=
  if text.toList.all (·.toNat < 0x80) then text else byteText text.toUTF8

/-- The text that a byte text encodes, with U+FFFD for every ill-formed part. -/
def unspelled (text : String) : String :=
  if text.toList.all (·.toNat < 0x80) then text else decodeLossy (bytesOf text)

end Handoff.Text
