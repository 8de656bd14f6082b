import WebSocket.MaskingKey

/-!
# Supplies of masking keys

A client draws a fresh key for every frame that it sends. Where the keys come from
is left to the owner of the client, who gives them as an endless sequence.
-/

namespace WebSocket

/-- A supply of masking keys: an endless sequence of which some have been drawn. -/
structure KeySupply where
  /-- The key that is handed out at each draw, counted from zero. -/
  key : Nat → MaskingKey
  /-- How many keys have been drawn. -/
  drawn : Nat := 0

namespace KeySupply

/-- Hand out the next key. -/
def draw (supply : KeySupply) : MaskingKey × KeySupply :=
  (supply.key supply.drawn, { supply with drawn := supply.drawn + 1 })

/-- Hand out the next `count` keys in order. -/
def drawMany : Nat → KeySupply → List MaskingKey × KeySupply
  | 0, supply => ([], supply)
  | count + 1, supply =>
      let (key, afterOne) := supply.draw
      let (keys, afterAll) := drawMany count afterOne
      (key :: keys, afterAll)

/-- The supply that hands out the listed keys and then the last one for ever. -/
def ofArray (keys : Array MaskingKey) (last : MaskingKey) : KeySupply where
  key index := keys.getD index last

end KeySupply
end WebSocket
