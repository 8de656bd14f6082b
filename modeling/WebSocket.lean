import WebSocket.CallbackChannel
import WebSocket.Decoder.Stream
import WebSocket.Endpoint.Session
import WebSocket.Log.Dispatcher
import WebSocket.OutputBuffer
import WebSocket.Proofs.Channel.Calm
import WebSocket.Proofs.Connection.Agreement
import WebSocket.Proofs.Decoder.Asking
import WebSocket.Proofs.Decoder.Begun
import WebSocket.Proofs.Decoder.Duality
import WebSocket.Proofs.Decoder.Limits
import WebSocket.Proofs.Decoder.Representation
import WebSocket.Proofs.Decoder.Sticking
import WebSocket.Proofs.Endpoint.Announcements
import WebSocket.Proofs.Endpoint.Cuts
import WebSocket.Proofs.Endpoint.Framing
import WebSocket.Proofs.Endpoint.Interruptions
import WebSocket.Proofs.Endpoint.Latch
import WebSocket.Proofs.Endpoint.Passes
import WebSocket.Proofs.Endpoint.Piped
import WebSocket.Proofs.Endpoint.Reads
import WebSocket.Proofs.Endpoint.Records
import WebSocket.Proofs.Endpoint.Sending
import WebSocket.Proofs.Endpoint.Sides
import WebSocket.Proofs.Endpoint.Taking
import WebSocket.Proofs.Endpoint.Waiting
import WebSocket.Proofs.Endpoint.Writes
import WebSocket.Proofs.Grammar.Decoding
import WebSocket.Proofs.Header.Codec
import WebSocket.Proofs.Checked
import WebSocket.Proofs.Header.Ranges
import WebSocket.Proofs.Decoder.Ranges
import WebSocket.Proofs.Endpoint.Ranges
