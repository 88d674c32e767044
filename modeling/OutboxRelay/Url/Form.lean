import OutboxRelay.Text.Pieces
import OutboxRelay.Text.Utf8
import OutboxRelay.Url.Percent

/-! Pairs of texts as the query of a URL: `name=value&name=value`.
Letters, digits and `*-._` stand for themselves, a space is written as `+`, every other byte is
escaped, so that neither `&` nor `=` nor `+` occurs in what is written for a text. -/

namespace OutboxRelay.Url.Form

open Text

def isPlain (b : UInt8) : Bool :=
  let c := Char.ofNat b.toNat
  b < 0x80 && (c.isAlphanum || ['*', '-', '.', '_'].contains c)

def encodeByte (b : UInt8) : List Char :=
  if isPlain b then [Char.ofNat b.toNat] else if b = 0x20 then ['+'] else escapeByte b

def encodeText (s : String) : List Char := (utf8 s).flatMap encodeByte

def encodePair (p : String × String) : List Char := encodeText p.1 ++ '=' :: encodeText p.2

def encode (pairs : List (String × String)) : List Char :=
  List.intercalate ['&'] (pairs.map encodePair)

def decodeText (cs : List Char) : String :=
  textOfUtf8 (unescape (cs.map fun c => if c = '+' then ' ' else c))

def decodePair (piece : List Char) : String × String :=
  (decodeText (piece.takeWhile (· ≠ '=')), decodeText ((piece.dropWhile (· ≠ '=')).drop 1))

def decode (query : List Char) : List (String × String) :=
  ((splitAt '&' query).filter (· ≠ [])).map decodePair

end OutboxRelay.Url.Form
