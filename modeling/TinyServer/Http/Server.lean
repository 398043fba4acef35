/-
`HttpServer` (http_server.h, http_server.cpp): the requests of a client,
each with the response to it.

What the servlets of the program do is a parameter: they get the request
and the response and change the response. A servlet that writes to the
session itself is left out. `sendResponse` hands the text of a response
to `writeFixSize` and does not look at what comes of it, so what is sent
is `dump` of the responses in their order.
-/
import TinyServer.Http.Servlet
import TinyServer.Http.Session

namespace TinyServer.Http

/-- What `handle` does with the response: of the objects, and of the
callbacks in `FunctionServlet`. -/
structure Handlers (O C : Type) where
  object : O → HttpRequest → HttpResponse → HttpResponse
  callback : C → HttpRequest → HttpResponse → HttpResponse

variable {O C : Type}

/-- `RSP_BODY` of `NotFountServlet::handle`. -/
def notFountBody : Bytes :=
  ascii ("<html><head><title>404 Not Found"
    ++ "</title></head><body><center><h1>404 Not Found</h1></center>"
    ++ "<hr><center>TinyServer/1.0.0</center></body></html>")

/-- `HttpResponse::setHeader`. -/
def HttpResponse.setHeader (r : HttpResponse) (key val : Bytes) :
    HttpResponse :=
  { r with headers := r.headers.set key val }

/-- `Servlet::handle`. -/
def Servlet.handle (h : Handlers O C) (request : HttpRequest)
    (response : HttpResponse) : Servlet O C → HttpResponse
  | .notFount =>
      { (({ response with status := 404 }.setHeader (ascii "Server")
        (ascii "TinyServer/1.0.0")).setHeader (ascii "Content-Type")
          (ascii "text/html")) with body := notFountBody }
  | .function cb => h.callback cb request response
  | .object o => h.object o request response

/-- `ServletDispatch::handle`. -/
def ServletDispatch.handle (fnmatch : Bytes → Bytes → Nat → Int)
    (h : Handlers O C) (d : ServletDispatch O C) (request : HttpRequest)
    (response : HttpResponse) : HttpResponse :=
  match d.getMatchedServlet fnmatch request.path with
  | some slt => slt.handle h request response
  | none => response

/-- `HttpServer`; `name` is `m_name` of the `TCPServer`. -/
structure HttpServer (O C : Type) where
  name : Bytes
  isKeepalive : Bool
  dispatch : ServletDispatch O C

namespace HttpServer

/-- The response that `handleClient` makes for a request. -/
def respond (fnmatch : Bytes → Bytes → Nat → Int) (h : Handlers O C)
    (s : HttpServer O C) (req : HttpRequest) : HttpResponse :=
  let rsp : HttpResponse :=
    ⟨200, req.version, [], [], [], req.close || !s.isKeepalive⟩
  s.dispatch.handle fnmatch h req (rsp.setHeader (ascii "Server") s.name)

/-- `HttpServer::handleClient`, of at most `k` requests: the requests with
the responses that were sent. -/
def handleClient (env : SessionEnv) (fnmatch : Bytes → Bytes → Nat → Int)
    (h : Handlers O C) (s : HttpServer O C) :
    Nat → Conn → Except Halted (List (HttpRequest × HttpResponse))
  | 0, _ => .ok []
  | k + 1, c => do
      let (r, c) ← HttpSession.recvRequest env c
      match r with
      | none => pure []
      | some req =>
          let rsp := s.respond fnmatch h req
          if !s.isKeepalive || req.close then pure [(req, rsp)]
          else
            let rest ← handleClient env fnmatch h s k c
            pure ((req, rsp) :: rest)

end HttpServer

end TinyServer.Http
