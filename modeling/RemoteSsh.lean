import RemoteSsh.Lib.Monitor
import RemoteSsh.Code.Funs
import RemoteSsh.Accumulate
import RemoteSsh.Absent
import RemoteSsh.Auth
import RemoteSsh.Gil
import RemoteSsh.Ownership
import RemoteSsh.Resources
import RemoteSsh.Commands.Failures
import RemoteSsh.Commands.Complete
import RemoteSsh.Lib.Pool
import RemoteSsh.Hosts
import RemoteSsh.CommandList
import RemoteSsh.Channel.Window
import RemoteSsh.Channel.Deadlock
import RemoteSsh.Ssh.Exit
import RemoteSsh.Ssh.RoundTrip
import RemoteSsh.Served
import RemoteSsh.Ssh.Bounds
