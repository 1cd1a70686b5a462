import Edgessh.Worker.HostKey
import Edgessh.Worker.IdleTimeout
import Edgessh.Worker.Teardown
import Edgessh.Worker.Registration
import Edgessh.Worker.Login
import Edgessh.Worker.Sessions
import Edgessh.Worker.KnownHosts
import Edgessh.Worker.Proxy
import Edgessh.Russh.Keys.KnownHosts
import Edgessh.Russh.Keys.Format.SecretKey
import Edgessh.Russh.Kex.Panic
import Edgessh.Russh.Kex.Mpint
import Edgessh.Russh.Session.Deferred
import Edgessh.Russh.Session.OutputQueue
import Edgessh.Russh.Client.GlobalRequests
import Edgessh.Russh.Client.Wasm
import Edgessh.Russh.Client.AuthMachine
import Edgessh.Russh.Server.Auth
import Edgessh.Russh.Server.Access
import Edgessh.Russh.Server.Attempts
import Edgessh.Russh.Server.Rejections
import Edgessh.Russh.ReceiveFlow
import Edgessh.Russh.ChannelNumbers
import Edgessh.Russh.Server.ConfirmedChannels
import Edgessh.Russh.Server.RefusedChannels
import Edgessh.Russh.KeyboardInteractive
import Edgessh.Russh.Server.Requests
import Edgessh.Russh.Kex.Guess
import Edgessh.Russh.Kex.Gex
import Edgessh.Russh.PublishedWindow
import Edgessh.Russh.Pty
import Edgessh.Russh.CryptoVec
import Edgessh.Russh.SshRead
import Edgessh.Russh.SshId
import Edgessh.Russh.Keys.Agent.Framing
import Edgessh.Russh.Keys.Agent.AddKey
import Edgessh.Russh.Keys.Agent.Sign
import Edgessh.Russh.Cipher.Read
import Edgessh.Russh.Cipher.Write
import Edgessh.Russh.Cipher.Traffic
import Edgessh.Russh.Kex.Handshake
import Edgessh.Russh.Established
import Edgessh.Russh.Channels.Rx
import Edgessh.Russh.Channels.Tx
import Edgessh.ZerosshDo.Transport
import Edgessh.Lib.Link
import Edgessh.Russh.Session.TwoEnds
