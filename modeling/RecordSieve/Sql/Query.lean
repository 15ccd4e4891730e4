import RecordSieve.Sql.Operator
/-!
# RecordSieve.Sql.Query

Queries as their printed form, and the clauses that may follow the condition of
one. A filter is the condition of a query and nothing else, so all of this is
read only to be shown in an error.
-/

namespace RecordSieve
namespace Sql

open Reader

namespace Level

/-! ### Clauses after a condition -/

/-- Reads a clause that starts with the given keywords, its rest by `p`, as a text
with a space in front; an empty text if it is not there. -/
def optional (keywords : List String) (p : Reader String) : Reader String := do
  if ← eatWords keywords then return " " ++ " ".intercalate keywords ++ " " ++ (← p)
  else return ""

/-- Reads one item of a grouping. -/
def groupItem (lv : Level) : Reader String := do
  if ← eatWords ["GROUPING", "SETS"] then
    let sets ← parenthesized (commaList (do
      if ← eat "(" then return "(" ++ commaJoined (← commaListUpTo ")" lv.text) ++ ")"
      else return "(" ++ (← lv.text) ++ ")"))
    return "GROUPING SETS (" ++ commaJoined sets ++ ")"
  match ← eatOneOf ["CUBE", "ROLLUP"] with
  | some k =>
    let sets ← parenthesized (commaList (do
      if ← eat "(" then return "(" ++ commaJoined (← commaListUpTo ")" lv.text) ++ ")"
      else lv.text))
    return k ++ " (" ++ commaJoined sets ++ ")"
  | none =>
    match ← attempt (do expect "("; expect ")") with
    | some _ => return "()"
    | none => lv.text

/-- Reads the modifiers of a grouping. -/
def groupModifiers : Nat → Reader String
  | 0 => return ""
  | budget + 1 => do
    if ← eatWord "WITH" then
      match ← eatOneOf ["ROLLUP", "CUBE", "TOTALS"] with
      | some k => return " WITH " ++ k ++ (← groupModifiers budget)
      | none => fail
    else return ""

/-- Reads a grouping, if there is one. -/
def grouping (lv : Level) : Reader String := do
  if ← eatWords ["GROUP", "BY"] then
    let items ←
      if ← eatWord "ALL" then pure "ALL" else pure (commaJoined (← commaList lv.groupItem))
    return " GROUP BY " ++ items ++ (← groupModifiers (← get).length)
  else return ""

/-- Reads one named window. -/
def namedWindow (lv : Level) : Reader String := do
  let n ← readName
  expectWord "AS"
  let name := String.ofList n.render
  if ← eat "(" then return name ++ " AS (" ++ (← lv.window) ++ ")"
  else return name ++ " AS " ++ String.ofList (← readName).render

/-- Reads named windows and a condition on windows, in either order. -/
def windows (lv : Level) : Reader String := do
  let names := do return commaJoined (← commaList lv.namedWindow)
  if ← atWord "WINDOW" then
    let w ← optional ["WINDOW"] names
    return w ++ (← optional ["QUALIFY"] lv.text)
  else
    let q ← optional ["QUALIFY"] lv.text
    if q.isEmpty then return ""
    return q ++ (← optional ["WINDOW"] names)

/-- Reads a walk along a hierarchy, if there is one. -/
def hierarchy (lv : Level) : Reader String := do
  let connect : Reader String := do
    if ← eatWord "NOCYCLE" then return "NOCYCLE " ++ (← lv.texts) else lv.texts
  if ← atWord "CONNECT" then
    let c ← optional ["CONNECT", "BY"] connect
    if c.isEmpty then fail
    if ← eatWords ["START", "WITH"] then
      return " START WITH " ++ (← lv.text) ++ c
    else fail
  else if ← atWord "START" then
    let s ← optional ["START", "WITH"] lv.text
    if s.isEmpty then fail
    let c ← optional ["CONNECT", "BY"] connect
    if c.isEmpty then fail
    return s ++ c
  else return ""

/-- Reads the clauses that belong to the condition's own query. -/
def selectTail (lv : Level) : Reader String := do
  let grouping ← lv.grouping
  let cluster ← optional ["CLUSTER", "BY"] lv.texts
  let distribute ← optional ["DISTRIBUTE", "BY"] lv.texts
  let sort ← optional ["SORT", "BY"] lv.sortItems
  let having ← optional ["HAVING"] lv.text
  let windows ← lv.windows
  return grouping ++ cluster ++ distribute ++ sort ++ having ++ windows ++ (← lv.hierarchy)

/-- Reads how far to skip, after its keyword. -/
def offset (lv : Level) : Reader String := do
  let e ← lv.text
  return " OFFSET " ++ e ++ spaced (← eatOneOf ["ROW", "ROWS"])

/-- Reads how many results to keep and to skip. `LIMIT ALL` keeps all of them and
prints as nothing. -/
def limits (lv : Level) : Reader String := do
  let early ← if ← eatWord "OFFSET" then pure (some (← lv.offset)) else pure none
  if ← eatWord "LIMIT" then
    let all ← eatWord "ALL"
    let count ← if all then pure "" else lv.text
    if !all && early.isNone && (← atSymbol ",") then
      expect ","
      return " LIMIT " ++ count ++ ", " ++ (← lv.text)
    let by_ ← if ← eatWord "BY" then pure (" BY " ++ (← lv.texts)) else pure ""
    let late ←
      match early with
      | some o => pure o
      | none => if ← eatWord "OFFSET" then lv.offset else pure ""
    return (if all then "" else " LIMIT " ++ count) ++ late ++ by_
  else return early.getD ""

/-- Reads how many results to fetch, if that is said. -/
def fetch : Reader String := do
  if ← eatWord "FETCH" then
    match ← eatOneOf ["FIRST", "NEXT"] with
    | none => fail
    | some _ =>
      let (count, percent) ←
        if (← eatOneOf ["ROW", "ROWS"]).isSome then pure ("", "")
        else
          let v ← readValue
          let percent ← eatWord "PERCENT"
          match ← eatOneOf ["ROW", "ROWS"] with
          | some _ => pure (" " ++ String.ofList v.render, if percent then " PERCENT" else "")
          | none => fail
      let ending ←
        if ← eatWord "ONLY" then pure "ONLY"
        else if ← eatWords ["WITH", "TIES"] then pure "WITH TIES"
        else fail
      return " FETCH FIRST" ++ count ++ percent ++ " ROWS " ++ ending
  else return ""

/-- Reads locks, on a budget of tokens. -/
def locks : Nat → Reader String
  | 0 => return ""
  | budget + 1 => do
    if ← eatWord "FOR" then
      match ← eatOneOf ["UPDATE", "SHARE"] with
      | none => fail
      | some k =>
        let of ← if ← eatWord "OF" then pure (" OF " ++ (← readPathText)) else pure ""
        let wait ←
          if ← eatWord "NOWAIT" then pure " NOWAIT"
          else if ← eatWords ["SKIP", "LOCKED"] then pure " SKIP LOCKED"
          else pure ""
        return " FOR " ++ k ++ of ++ wait ++ (← locks budget)
    else return ""

/-- Reads one setting. -/
def setting : Reader String := do
  let key ← readName
  expect "="
  return String.ofList key.render ++ " = " ++ String.ofList (← readValue).render

/-- Reads the clauses that belong to a whole query. -/
def queryTail (lv : Level) : Reader String := do
  let order ← optional ["ORDER", "BY"] lv.sortItems
  let limits ← lv.limits
  let settings ← optional ["SETTINGS"] (do return commaJoined (← commaList setting))
  let fetch ← fetch
  let locks ← locks (← get).length
  let format ← optional ["FORMAT"] (do return String.ofList (← readName).render)
  return order ++ limits ++ settings ++ fetch ++ locks ++ format

/-! ### Queries -/

/-- Words that do not name what they follow. -/
def clauseWords : List String :=
  ["WITH", "EXPLAIN", "ANALYZE", "SELECT", "WHERE", "GROUP", "SORT", "HAVING", "ORDER", "TOP",
   "LATERAL", "VIEW", "LIMIT", "OFFSET", "FETCH", "UNION", "EXCEPT", "EXCLUDE", "INTERSECT",
   "MINUS", "CLUSTER", "DISTRIBUTE", "RETURNING", "FROM", "INTO", "END", "ON", "JOIN", "INNER",
   "CROSS", "FULL", "LEFT", "RIGHT", "NATURAL", "USING", "OUTER", "SET", "QUALIFY", "WINDOW",
   "FOR", "FORMAT", "SETTINGS", "CONNECT", "START", "SAMPLE", "TABLESAMPLE", "PREWHERE", "PIVOT",
   "UNPIVOT", "MATCH_RECOGNIZE", "FINAL", "SEMI", "ANTI", "ASOF", "GLOBAL", "PARTITION"]

/-- Reads a name given to what stands before it, if there is one. -/
def aliasText : Reader String := do
  if ← eatWord "AS" then return " AS " ++ String.ofList (← readName).render
  match ← peek with
  | some (.word v q) =>
    if q.isNone && clauseWords.contains (keywordSpelling v) then return ""
    let _ ← next
    return " AS " ++ String.ofList (Name.render ⟨v, q⟩)
  | _ => return ""

/-- Reads one column of a query. -/
def column (lv : Level) : Reader String := do
  let e ← lv.argument
  return e ++ (← aliasText)

/-- Reads one source of rows: a table, or a query in parentheses. -/
def source (lv : Level) : Reader String := do
  if ← eat "(" then
    let q ← lv.query
    expect ")"
    return "(" ++ q ++ ")" ++ (← aliasText)
  else
    let t ← readPathText
    return t ++ (← aliasText)

/-- Reads the sources of a query after `FROM`, joined ones included. -/
def joins (lv : Level) : Nat → Reader String
  | 0 => return ""
  | budget + 1 => do
    let kind ←
      if ← eatWord "JOIN" then pure (some "JOIN")
      else if ← eatWords ["INNER", "JOIN"] then pure (some "INNER JOIN")
      else if ← eatWords ["CROSS", "JOIN"] then pure (some "CROSS JOIN")
      else if ← eatWords ["LEFT", "JOIN"] then pure (some "LEFT JOIN")
      else if ← eatWords ["LEFT", "OUTER", "JOIN"] then pure (some "LEFT OUTER JOIN")
      else if ← eatWords ["RIGHT", "JOIN"] then pure (some "RIGHT JOIN")
      else if ← eatWords ["RIGHT", "OUTER", "JOIN"] then pure (some "RIGHT OUTER JOIN")
      else if ← eatWords ["FULL", "JOIN"] then pure (some "FULL JOIN")
      else if ← eatWords ["FULL", "OUTER", "JOIN"] then pure (some "FULL OUTER JOIN")
      else pure none
    match kind with
    | none => return ""
    | some k =>
      let s ← lv.source
      let on ←
        if ← eatWord "ON" then pure (" ON " ++ (← lv.text))
        else if ← eatWord "USING" then
          pure (" USING(" ++ commaJoined (← parenthesized (commaList readPathText)) ++ ")")
        else pure ""
      return " " ++ k ++ " " ++ s ++ on ++ (← lv.joins budget)

/-- Reads the sources of a query, after `FROM`. -/
def sources (lv : Level) : Reader String := do
  return commaJoined (← commaList (do
    let s ← lv.source
    return s ++ (← lv.joins (← get).length)))

/-- Reads a selection after its keyword. -/
def selection (lv : Level) : Reader String := do
  let _ ← eatWord "ALL"
  let distinct ← eatWord "DISTINCT"
  let columns ←
    match ← peek with
    | none | some (.symbol ")") => pure ""
    | _ =>
      if ← atWord "FROM" then pure ""
      else pure (" " ++ commaJoined (← commaList lv.column))
  let source ← if ← eatWord "FROM" then pure (" FROM " ++ (← lv.sources)) else pure ""
  let condition ← if ← eatWord "WHERE" then pure (" WHERE " ++ (← lv.text)) else pure ""
  return "SELECT" ++ (if distinct then " DISTINCT" else "") ++ columns ++ source ++ condition ++
    (← lv.selectTail)

/-- Reads one row of values. -/
def row (lv : Level) : Reader String := do
  let _ ← eatWord "ROW"
  expect "("
  return "(" ++ commaJoined (← commaListUpTo ")" lv.text) ++ ")"

/-- Reads one part of a query that set operations combine. -/
def queryPart (lv : Level) : Reader String := do
  if ← eatWord "SELECT" then lv.selection
  else if ← eatWord "FROM" then
    let s ← lv.sources
    if ← eatWord "SELECT" then
      let columns ← commaList lv.column
      let condition ← if ← eatWord "WHERE" then pure (" WHERE " ++ (← lv.text)) else pure ""
      return "FROM " ++ s ++ " SELECT " ++ commaJoined columns ++ condition ++ (← lv.selectTail)
    else
      let condition ← if ← eatWord "WHERE" then pure (" WHERE " ++ (← lv.text)) else pure ""
      return "FROM " ++ s ++ condition ++ (← lv.selectTail)
  else if ← eatWord "VALUES" then
    return "VALUES " ++ commaJoined (← commaList lv.row)
  else if ← eatWord "TABLE" then return "TABLE " ++ (← readPathText)
  else
    let q ← parenthesized lv.query
    return "(" ++ q ++ ")"

/-- Reads the rest of a set operation after its keyword. -/
def setOperand (lv : Level) (keyword : String) : Reader String := do
  let how ←
    if ← eatWords ["ALL", "BY", "NAME"] then pure (some "ALL BY NAME")
    else if ← eatWords ["DISTINCT", "BY", "NAME"] then pure (some "DISTINCT BY NAME")
    else if ← eatWords ["BY", "NAME"] then pure (some "BY NAME")
    else eatOneOf ["ALL", "DISTINCT"]
  return " " ++ keyword ++ spaced how ++ " " ++ (← lv.queryPart)

/-- Reads set operations, on a budget of tokens. -/
def setOperations (lv : Level) : Nat → Reader String
  | 0 => return ""
  | budget + 1 => do
    match ← eatOneOf ["UNION", "EXCEPT", "INTERSECT", "MINUS"] with
    | some k =>
      let s ← lv.setOperand k
      return s ++ (← lv.setOperations budget)
    | none => return ""

/-- Reads the queries named in front of a query. -/
def namedQueries (lv : Level) : Reader String := do
  if ← eatWord "WITH" then
    let recursive ← eatWord "RECURSIVE"
    let items ← commaList (do
      let n ← readName
      let columns ←
        if ← eat "(" then
          let ns ← commaListUpTo ")" readPathText
          pure (" (" ++ commaJoined ns ++ ")")
        else pure ""
      expectWord "AS"
      let q ← parenthesized lv.query
      return String.ofList n.render ++ columns ++ " AS (" ++ q ++ ")")
    return (if recursive then "WITH RECURSIVE " else "WITH ") ++ commaJoined items ++ " "
  else return ""

/-- Reads a query. -/
def fullQuery (lv : Level) : Reader String := do
  let named ← lv.namedQueries
  let first ← lv.queryPart
  let sets ← lv.setOperations ((← get).length + 1)
  return named ++ first ++ sets ++ (← lv.queryTail)

/-- The readers that allow `n` expressions and queries to be open at once, one
inside the other. -/
def ofDepth : Nat → Level
  | 0 => ⟨fun _ => tooDeep, tooDeep⟩
  | n + 1 => ⟨(ofDepth n).expression, (ofDepth n).fullQuery⟩

end Level
end Sql
end RecordSieve
