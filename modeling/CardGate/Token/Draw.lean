import CardGate.Card.Luhn
import CardGate.Text.Base64
import CardGate.Token.Format

/-!
# New tokens

A token is made from random material that is drawn outside: 32 bytes for a tagged token, eleven
digits for a numeric one.
-/

namespace CardGate

/-- The random material for a token of either format. -/
structure TokenDraw where
  bytes : Vector UInt8 32
  digits : Vector (Fin 10) 11

/-- The tagged token of 32 bytes. -/
def taggedToken (bytes : Vector UInt8 32) : String :=
  TokenFormat.tagged.sentinel ++ Base64.encode bytes.toList

/-- The numeric token of eleven digits.  Fifteen digits always have a check digit. -/
def numericToken (digits : Vector (Fin 10) 11) : String :=
  let body := TokenFormat.numeric.sentinel.toList ++ digits.toList.map fun d => Card.digitChar d.val
  String.ofList (body ++ [Card.digitChar ((Card.checkDigit? body).getD 0)])

/-- A new token. -/
def TokenFormat.token (format : TokenFormat) (draw : TokenDraw) : String :=
  match format with
  | tagged => taggedToken draw.bytes
  | numeric => numericToken draw.digits

end CardGate
