import RowStore.Json.Decoder
import RowStore.Query.Basic

/-!
# Queries described in JSON

A query as an object with the members `table`, `filters`, `orders`, `groupBy`, `selectedFields`,
`limit`, `offset` and `distinct`, of which only the table has to be there.
-/

namespace RowStore

open Json (Decoder)

def Comparison.decoder : Decoder Comparison :=
  Json.Decoder.text.map fun source =>
    match Comparison.read source with
    | .ok comparison => .ok comparison
    | .error fault => .error (.refused fault.message)

def Operand.decoder : Decoder Operand := Json.Decoder.json.map fun j => .ok (Operand.ofJson j)

def Filter.decoder : Decoder Filter :=
  Json.Decoder.record "Filter"
    [.required "field" Json.Decoder.text fun field f => { f with field := field },
      .required "op" Comparison.decoder fun comparison f =>
        { f with comparison := comparison },
      .defaulted "value" Operand.decoder fun operand f => { f with operand := operand }]
    ⟨"", .eq, .missing⟩

def Order.decoder : Decoder Order :=
  Json.Decoder.record "Order"
    [.required "field" Json.Decoder.text fun field o => { o with field := field },
      .defaulted "descending" Json.Decoder.flag fun descending o =>
        { o with descending := descending }]
    ⟨"", false⟩

namespace Query

/-- A limit or an offset. Null is none. -/
def countDecoder : Decoder (Option UInt64) :=
  (Json.Decoder.optional (Json.Decoder.word 64)).map fun n => .ok (n.map UInt64.ofNat)

def fields : List (Json.Decoder.Field Query) :=
  [.required "table" Json.Decoder.text fun table q => { q with table := table },
    .defaulted "filters" (Json.Decoder.list Filter.decoder) fun filters q =>
      { q with filters := filters },
    .defaulted "orders" (Json.Decoder.list Order.decoder) fun orders q =>
      { q with orders := orders },
    .defaulted "groupBy" (Json.Decoder.list Json.Decoder.text) fun groups q =>
      { q with groups := groups },
    .defaulted "selectedFields"
      (Json.Decoder.optional (Json.Decoder.list Json.Decoder.text)) fun selection q =>
      { q with selection := selection },
    .defaulted "limit" countDecoder fun limit q => { q with limit := limit },
    .defaulted "offset" countDecoder fun offset q => { q with offset := offset },
    .defaulted "distinct" Json.Decoder.flag fun distinct q => { q with distinct := distinct }]

def decoder : Decoder Query := Json.Decoder.record "DbQuery" fields (ofTable "")

def ofJsonText (source : String) : Except Fault Query :=
  match decoder.run source with
  | .ok q => .ok q
  | .error problem => .error (.invalid (.malformedQuery problem))

end Query

end RowStore
