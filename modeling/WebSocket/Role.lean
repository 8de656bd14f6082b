/-!
# Endpoint roles

The two ends of a connection follow opposite masking rules: every frame a
client sends is masked and no frame a server sends is.
-/

namespace WebSocket

/-- The part an endpoint plays in its connection. -/
inductive Role
  | server
  | client
  deriving DecidableEq, Repr, Inhabited

namespace Role

/-- The role at the other end of the connection. -/
def peer : Role → Role
  | .server => .client
  | .client => .server

@[simp] theorem peer_server : server.peer = client := rfl

@[simp] theorem peer_client : client.peer = server := rfl

/-- Either end is the peer of its peer. -/
@[simp] theorem peer_peer (role : Role) : role.peer.peer = role := by
  cases role <;> rfl

end Role
end WebSocket
