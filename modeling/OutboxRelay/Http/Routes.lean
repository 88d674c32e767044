import OutboxRelay.Http.Response
import OutboxRelay.Store.Sql
import OutboxRelay.Text.Blank
import OutboxRelay.Uuid

/-! The routes of the service: liveness, readiness and row counts. Every answer carries the
correlation id of its request, a fresh one if the request has none. -/

namespace OutboxRelay.Http

open Text Sql

structure Request where
  method : String
  target : String
  headers : List (String × Bytes)

def afterHost (cs : List Char) : List Char :=
  match cs.dropWhile fun c => c.isAlphanum || ['+', '-', '.'].contains c with
  | ':' :: '/' :: '/' :: rest => rest.dropWhile fun c => !(['/', '?', '#'].contains c)
  | _ => cs

def pathOf (target : String) : String :=
  String.ofList ((afterHost target.toList).takeWhile fun c => c ≠ '?' && c ≠ '#')

inductive Route
  | health
  | readiness
  | stats
deriving DecidableEq

def Route.ofPath? (path : String) : Option Route :=
  if path = "/healthz" then some .health
  else if path = "/readyz" then some .readiness
  else if path = "/outbox/stats" then some .stats
  else none

def correlationIdName : String := "x-correlation-id"

def Request.header? (r : Request) (name : String) : Option Bytes :=
  (r.headers.find? fun (n, _) => lowerAscii n = name).map (·.2)

def allowedMethods : String := "GET,HEAD"

def pingFailedEntry (e : DbError) : JournalEntry :=
  ⟨.warn, "database ping failed", [("error", e.message)]⟩

structure Served (σ : Type) where
  response : Response
  database : σ
  journal : Journal

variable {σ : Type} [Database σ]

def serveRoute (db : σ) : Route → Served σ
  | .health => ⟨.ofStatus 200, db, []⟩
  | .readiness =>
    match Database.ping db with
    | .ok _ => ⟨.ofStatus (Http.readyStatus true), db, []⟩
    | .error e => ⟨.ofStatus (Http.readyStatus false), db, [pingFailedEntry e]⟩
  | .stats =>
    let reply := SqlStore.stats db
    match reply.result with
    | .ok stats => ⟨.json 200 (statsBody stats), reply.store, reply.journal⟩
    | .error cause =>
      let e := RequestError.internal cause
      ⟨e.response, reply.store, reply.journal ++ e.journal⟩

def serveMethod (db : σ) (r : Request) : Served σ :=
  match Route.ofPath? (pathOf r.target) with
  | none => ⟨RequestError.notFound.response, db, []⟩
  | some route =>
    if r.method = "GET" ∨ r.method = "HEAD" then serveRoute db route
    else ⟨(Response.ofStatus 405).withHeader "allow" (utf8 allowedMethods), db, []⟩

def serve (db : σ) (r : Request) (ids : IdSource) : Served σ × IdSource :=
  let (id, ids) := match r.header? correlationIdName with
    | some value => (value, ids)
    | none => let (id, ids) := ids.draw; (utf8 id.hyphenated, ids)
  let served := serveMethod db r
  let response := (served.response.withHeader "content-length"
    (utf8 (toString (utf8 served.response.body).length))).withHeader correlationIdName id
  ({ served with
    response := if r.method = "HEAD" then { response with body := "" } else response }, ids)

end OutboxRelay.Http
